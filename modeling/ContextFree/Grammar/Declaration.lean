import ContextFree.Distinct
import ContextFree.FirstFailure
import ContextFree.Grammar.Basic

/-!
# Grammars from declarations

A grammar is declared by listing its two alphabets, its start symbol and rows of bodies. Rows
may come in any order and may repeat a left-hand side: the bodies of a non-terminal are those of
all its rows. Whatever is listed twice counts once, at its first place.

* `Grammar.ofRows?` takes symbols that are already told apart as terminals and non-terminals.
* `Grammar.ofNames?` takes bare names and tells them apart by the alphabet that declares them.

A declaration that does not make a grammar is refused with its first fault: the start symbol
is looked at first, then the alphabets, then the rows from top to bottom, and in a row its
left-hand side before its bodies.

Rows are looked at as they are entered in a table of rules. What comes of that can be said without
the table (`Grammar.ofRows?_eq`): if the declaration has no fault, then each non-terminal is given
all bodies that the rows have for it.
-/

namespace ContextFree

namespace Grammar

def isDeclared (nonterminals terminals : List Name) : Symbol → Bool
  | .terminal a => terminals.contains a
  | .nonterminal A => nonterminals.contains A

/-- The first symbol of a body that is not declared is its fault. -/
def bodyFault? (declares : Symbol → Bool) (lhs : Name) (body : Body) : Option Malformed :=
  (body.find? (!declares ·)).map fun s =>
    .undeclaredSymbol lhs (body.map (·.name.text)) s.name.text

/-- Adds a body to the rule of its left-hand side, unless the rule lists it already. -/
def enter (table : List (Rule Body)) (lhs : Name) (body : Body) : List (Rule Body) :=
  table.map fun rule =>
    if rule.lhs = lhs ∧ body ∉ rule.bodies then ⟨lhs, rule.bodies ++ [body]⟩ else rule

/-- Looks at a body and enters it if it has no fault. -/
def enterBody (declares : Symbol → Bool) (lhs : Name) (table : List (Rule Body)) (body : Body) :
    Except Malformed (List (Rule Body)) :=
  match bodyFault? declares lhs body with
  | some fault => .error fault
  | none => .ok (enter table lhs body)

/-- Looks for the rule of a row and enters the bodies of the row, one after the other. -/
def enterRow (declares : Symbol → Bool) (table : List (Rule Body)) (row : Rule Body) :
    Except Malformed (List (Rule Body)) :=
  if row.lhs ∈ table.map (·.lhs) then row.bodies.foldlM (enterBody declares row.lhs) table
  else .error (.undeclaredLeftSide row.lhs)

/-- The grammar declared by two alphabets, rows of bodies and a start symbol. -/
def ofRows? (nonterminals terminals : List Name) (rows : List (Rule Body)) (start : Name) :
    Except Malformed Grammar :=
  let nonterminals := nonterminals.eraseDups
  let terminals := terminals.eraseDups
  if start ∉ nonterminals then .error (.missingStart start)
  else match terminals.find? nonterminals.contains with
    | some a => .error (.overlappingAlphabets a)
    | none => do
      let blank := nonterminals.map fun A => ⟨A, []⟩
      let rules ← rows.foldlM (enterRow (isDeclared nonterminals terminals)) blank
      return { start, nonterminals, terminals, rules }

/-- The text as a name; empty texts are refused. -/
def readName (text : String) : Except Malformed Name :=
  match Name.ofString? text with
  | some a => .ok a
  | none => .error .emptyName

/-- The symbol that a text stands for: a declared non-terminal, else a declared terminal. -/
def classify? (nonterminals terminals : List Name) (text : String) : Option Symbol := do
  let name ← Name.ofString? text
  if name ∈ nonterminals then some (.nonterminal name)
  else if name ∈ terminals then some (.terminal name)
  else none

/-- The body that a list of texts stands for. The sign of the empty word, on its own, is the
empty body, whatever is declared. -/
def readBody (nonterminals terminals : List Name) (lhs : Name) (texts : List String) :
    Except Malformed Body :=
  if texts = [emptySign] then .ok []
  else texts.mapM fun text =>
    match classify? nonterminals terminals text with
    | some s => .ok s
    | none => .error (.undeclaredSymbol lhs texts text)

def readRow (nonterminals terminals : List Name) (row : String × List (List String)) :
    Except Malformed (Rule Body) := do
  let lhs ← readName row.1
  let bodies ← row.2.mapM (readBody nonterminals terminals lhs)
  return ⟨lhs, bodies⟩

def ofNames? (nonterminals terminals : List String) (rows : List (String × List (List String)))
    (start : String) : Except Malformed Grammar := do
  let nonterminals ← nonterminals.mapM readName
  let terminals ← terminals.mapM readName
  let rows ← rows.mapM (readRow nonterminals terminals)
  let start ← readName start
  ofRows? nonterminals terminals rows start

/-! ### Faults and bodies, without the table -/

/-- The fault of a row: a left-hand side that is not declared, or else the fault of the first body
that has one. -/
def rowFault? (declares : Symbol → Bool) (row : Rule Body) : Option Malformed :=
  if declares (.nonterminal row.lhs) then row.bodies.findSome? (bodyFault? declares row.lhs)
  else some (.undeclaredLeftSide row.lhs)

/-- The first fault of the parts that are to make up a grammar. -/
def fault? (nonterminals terminals : List Name) (rows : List (Rule Body)) (start : Name) :
    Option Malformed :=
  if start ∉ nonterminals then some (.missingStart start)
  else match terminals.find? nonterminals.contains with
    | some a => some (.overlappingAlphabets a)
    | none => rows.findSome? (rowFault? (isDeclared nonterminals terminals))

/-- All bodies that the rows give to `A`, each once. -/
def gather (rows : List (Rule Body)) (A : Name) : List Body :=
  ((rows.filter (·.lhs = A)).flatMap (·.bodies)).eraseDups

/-- The rules that the rows give to the non-terminals. -/
def gatherAll (nonterminals : List Name) (rows : List (Rule Body)) : List (Rule Body) :=
  nonterminals.map fun A => ⟨A, gather rows A⟩

variable {nonterminals terminals : List Name} {rows : List (Rule Body)} {start : Name}
  {declares : Symbol → Bool}

/-- One more row counts for its left-hand side alone. -/
theorem gather_concat (rows : List (Rule Body)) (row : Rule Body) (A : Name) :
    gather (rows ++ [row]) A =
      if row.lhs = A then (gather rows A ++ row.bodies).eraseDups else gather rows A := by
  unfold gather
  rw [List.filter_append, List.flatMap_append]
  split
  · next same =>
    rw [List.filter_cons_of_pos (by simpa using same), eraseDups_eraseDups_append]
    exact congrArg List.eraseDups (congrArg _ (List.append_nil row.bodies))
  · next other =>
    rw [List.filter_cons_of_neg (by simpa using other)]
    exact congrArg List.eraseDups (List.append_nil _)

/-- A body more is appended to what has been gathered, unless it is there already. -/
theorem gather_concat_body (rows : List (Rule Body)) (A : Name) (bodies : List Body) (body : Body) :
    gather (rows ++ [⟨A, bodies ++ [body]⟩]) A =
      if body ∈ gather (rows ++ [⟨A, bodies⟩]) A then gather (rows ++ [⟨A, bodies⟩]) A
      else gather (rows ++ [⟨A, bodies⟩]) A ++ [body] := by
  have before : gather (rows ++ [⟨A, bodies⟩]) A = (gather rows A ++ bodies).eraseDups := by
    rw [gather_concat, if_pos rfl]
  have distinct : (gather (rows ++ [⟨A, bodies⟩]) A).Nodup := nodup_eraseDups _
  rw [← eraseDups_concat distinct, before, eraseDups_eraseDups_append, gather_concat, if_pos rfl,
    List.append_assoc]

/-- A row without bodies adds nothing. -/
theorem gather_concat_nil (rows : List (Rule Body)) (A B : Name) :
    gather (rows ++ [⟨A, []⟩]) B = gather rows B := by
  rw [gather_concat, List.append_nil]
  split
  · exact eraseDups_of_nodup (nodup_eraseDups _)
  · rfl

theorem lhs_gatherAll (nonterminals : List Name) (rows : List (Rule Body)) :
    (gatherAll nonterminals rows).map (·.lhs) = nonterminals := by
  rw [gatherAll, List.map_map]
  exact List.map_id _

/-- **Entering a body** in the table of some rows gives the table of these rows with the body at the
end of the last one. -/
theorem enter_gatherAll (A : Name) (bodies : List Body) (body : Body) :
    enter (gatherAll nonterminals (rows ++ [⟨A, bodies⟩])) A body =
      gatherAll nonterminals (rows ++ [⟨A, bodies ++ [body]⟩]) := by
  rw [enter, gatherAll, gatherAll, List.map_map]
  refine List.map_congr_left fun B _ => ?_
  by_cases same : B = A
  · subst same
    simp only [Function.comp_apply, true_and, gather_concat_body, ite_not]
    split <;> rfl
  · -- the other rules are left alone
    have kept : ∀ own, gather (rows ++ [⟨A, own⟩]) B = gather rows B := by
      intro own
      rw [gather_concat, if_neg (Ne.symm same)]
    simp only [Function.comp_apply, same, false_and, if_false, kept]

/-- **Entering a row** in the table of some rows gives the table of these rows and this one, if the
row has no fault. -/
theorem enterRow_gatherAll (declares_iff : ∀ A, declares (.nonterminal A) ↔ A ∈ nonterminals)
    (rows : List (Rule Body)) (row : Rule Body) :
    enterRow declares (gatherAll nonterminals rows) row =
      (rowFault? declares row).elim (.ok (gatherAll nonterminals (rows ++ [row]))) .error := by
  unfold enterRow rowFault?
  rw [lhs_gatherAll]
  by_cases declared : row.lhs ∈ nonterminals
  · -- the table after some of the bodies is that of a row with these bodies alone
    have each (taken : List Body) (body : Body) :
        enterBody declares row.lhs (gatherAll nonterminals (rows ++ [⟨row.lhs, taken⟩])) body =
          (bodyFault? declares row.lhs body).elim
            (.ok (gatherAll nonterminals (rows ++ [⟨row.lhs, taken ++ [body]⟩]))) .error := by
      unfold enterBody
      cases bodyFault? declares row.lhs body with
      | some fault => rfl
      | none => exact congrArg Except.ok (enter_gatherAll row.lhs taken body)
    have blank : gatherAll nonterminals (rows ++ [⟨row.lhs, []⟩]) = gatherAll nonterminals rows :=
      List.map_congr_left fun B _ => congrArg (Rule.mk B) (gather_concat_nil rows row.lhs B)
    have loop := foldlM_eq_elim each [] row.bodies
    rw [blank] at loop
    rw [if_pos declared, if_pos ((declares_iff row.lhs).mpr declared), loop]
    rfl
  · rw [if_neg declared, if_neg fun declares => declared ((declares_iff row.lhs).mp declares)]
    rfl

/-- Whether a symbol is declared does not depend on how often it is listed. -/
theorem isDeclared_eraseDups (nonterminals terminals : List Name) :
    isDeclared nonterminals.eraseDups terminals.eraseDups = isDeclared nonterminals terminals := by
  funext s
  rw [Bool.eq_iff_iff]
  cases s with
  | terminal a => simp [isDeclared, List.mem_eraseDups]
  | nonterminal A => simp [isDeclared, List.mem_eraseDups]

/-- **What a declaration comes to**: its first fault, or the grammar in which each non-terminal has
the bodies of all its rows. -/
theorem ofRows?_eq (nonterminals terminals : List Name) (rows : List (Rule Body)) (start : Name) :
    ofRows? nonterminals terminals rows start =
      (fault? nonterminals terminals rows start).elim
        (.ok {
          start
          nonterminals := nonterminals.eraseDups
          terminals := terminals.eraseDups
          rules := gatherAll nonterminals.eraseDups rows })
        .error := by
  have shared : terminals.eraseDups.find? nonterminals.eraseDups.contains
      = terminals.find? nonterminals.contains := by
    have contains : nonterminals.eraseDups.contains = nonterminals.contains :=
      funext fun A => congrFun (isDeclared_eraseDups nonterminals terminals) (.nonterminal A)
    rw [contains, ← List.head?_filter, ← eraseDups_filter, head?_eraseDups, List.head?_filter]
  have declares_iff : ∀ A, isDeclared nonterminals terminals (.nonterminal A) ↔
      A ∈ nonterminals.eraseDups := fun A => List.contains_iff_mem.trans List.mem_eraseDups.symm
  unfold ofRows? fault?
  simp only [List.mem_eraseDups, shared, isDeclared_eraseDups]
  split
  · rfl
  · split
    · rfl
    · -- the loop over the rows, from the table without bodies
      have loop := foldlM_eq_elim (enterRow_gatherAll declares_iff) [] rows
      have blank : (nonterminals.eraseDups.map fun A => (⟨A, []⟩ : Rule Body))
          = gatherAll nonterminals.eraseDups [] := rfl
      rw [blank, loop]
      cases rows.findSome? (rowFault? (isDeclared nonterminals terminals)) <;> rfl

/-! ### What is accepted -/

theorem bodyFault?_eq_none_iff {lhs : Name} {body : Body} :
    bodyFault? declares lhs body = none ↔ ∀ s ∈ body, declares s := by
  simp [bodyFault?, List.find?_eq_none]

theorem rowFault?_eq_none_iff {row : Rule Body} :
    rowFault? declares row = none ↔
      declares (.nonterminal row.lhs) ∧ ∀ body ∈ row.bodies, ∀ s ∈ body, declares s := by
  unfold rowFault?
  split
  · next lhs => simp [lhs, bodyFault?_eq_none_iff]
  · next lhs => simp [lhs]

/-- The parts have no fault if the start symbol is declared, the alphabets share no name, and the
rows have declared left-hand sides and bodies of declared symbols. -/
theorem fault?_eq_none_iff :
    fault? nonterminals terminals rows start = none ↔
      start ∈ nonterminals ∧ (∀ a ∈ terminals, a ∉ nonterminals) ∧
        ∀ row ∈ rows, row.lhs ∈ nonterminals ∧
          ∀ body ∈ row.bodies, ∀ s ∈ body, isDeclared nonterminals terminals s := by
  have lhs : ∀ A, isDeclared nonterminals terminals (.nonterminal A) ↔ A ∈ nonterminals :=
    fun A => List.contains_iff_mem
  unfold fault?
  split
  · next missing => simp [missing]
  · next present =>
    rw [Decidable.not_not] at present
    split
    · next a found =>
      have mem := List.mem_of_find?_eq_some found
      have shared := List.find?_some found
      simp only [List.contains_iff_mem] at shared
      simp only [reduceCtorEq, false_iff, not_and]
      intro _ disjoint
      exact absurd shared (disjoint a mem)
    · next disjoint =>
      simp only [List.find?_eq_none, List.contains_iff_mem] at disjoint
      simp only [List.findSome?_eq_none_iff, rowFault?_eq_none_iff, lhs]
      exact ⟨fun rest => ⟨present, disjoint, rest⟩, fun ⟨_, _, rest⟩ => rest⟩

theorem mem_gather {A : Name} {body : Body} :
    body ∈ gather rows A ↔ ∃ row ∈ rows, row.lhs = A ∧ body ∈ row.bodies := by
  simp [gather, List.mem_eraseDups, and_assoc]

/-- **Declared grammars are well formed.** -/
theorem ofRows?_wellFormed {G : Grammar} (h : ofRows? nonterminals terminals rows start = .ok G) :
    G.WellFormed := by
  rw [ofRows?_eq] at h
  cases fine : fault? nonterminals terminals rows start with
  | some fault =>
    rw [fine] at h
    cases h
  | none =>
    rw [fine] at h
    cases h
    obtain ⟨start_mem, disjoint, declared⟩ := fault?_eq_none_iff.mp fine
    refine ⟨?_, ?_, nodup_eraseDups _, nodup_eraseDups _, ?_, ?_, ?_⟩
    · exact List.mem_eraseDups.mpr start_mem
    · intro a ha
      rw [List.mem_eraseDups] at ha ⊢
      exact disjoint a ha
    · exact lhs_gatherAll _ _
    · intro rule hrule body hbody s hs
      obtain ⟨A, _, rfl⟩ := List.mem_map.mp hrule
      obtain ⟨row, hrow, _, mem⟩ := mem_gather.mp hbody
      have := (declared row hrow).2 body mem s hs
      cases s <;> simpa [Declares, isDeclared, List.mem_eraseDups] using this
    · intro rule hrule
      obtain ⟨A, _, rfl⟩ := List.mem_map.mp hrule
      exact nodup_eraseDups _

theorem ofNames?_wellFormed {nonterminals terminals : List String}
    {rows : List (String × List (List String))} {start : String} {G : Grammar}
    (h : ofNames? nonterminals terminals rows start = .ok G) : G.WellFormed := by
  obtain ⟨_, _, h⟩ := exists_of_bind_eq_ok h
  obtain ⟨_, _, h⟩ := exists_of_bind_eq_ok h
  obtain ⟨_, _, h⟩ := exists_of_bind_eq_ok h
  obtain ⟨_, _, h⟩ := exists_of_bind_eq_ok h
  exact ofRows?_wellFormed h

end Grammar

end ContextFree

import ContextFree.Proofs.BareNames

/-!
# Rules of one left-hand side

A text may have several rules of one left-hand side. They are merged before the grammar is put
together: a table has one row for each left-hand side, which is opened when the first rule of it is
met, and the bodies of the later rules are put at its end. When some of the rules have been taken,
the table is that of the merged rows (`Grammar.merged`); a row that is opened (`openRow_merged`), a
body that is put into it (`pushBody_merged`) and a whole rule (`mergeRule_merged`) keep it so. In
the end all rules are merged (`Grammar.mergeRules_eq`).

A declaration merges the rows of one left-hand side as well, if they have not been merged yet. No
body is lost on the way and those of one left-hand side stay in order, so it makes no difference
whether this is done once or twice (`Grammar.ofRows?_merged`).
-/

namespace ContextFree

namespace Grammar

variable {nonterminals terminals : List Name} {rows : List (Rule Body)} {A : Name}

/-! ### The table of merged rows -/

/-- All bodies that the rows have for a left-hand side. -/
def bodiesOf (rows : List (Rule Body)) (A : Name) : List Body :=
  (rows.filter (·.lhs = A)).flatMap (·.bodies)

/-- The rows with one row for each left-hand side. -/
def merged (rows : List (Rule Body)) : List (Rule Body) :=
  (rows.map (·.lhs)).eraseDups.map fun A => ⟨A, bodiesOf rows A⟩

theorem bodiesOf_concat (rows : List (Rule Body)) (row : Rule Body) (A : Name) :
    bodiesOf (rows ++ [row]) A =
      if row.lhs = A then bodiesOf rows A ++ row.bodies else bodiesOf rows A := by
  unfold bodiesOf
  rw [List.filter_append, List.flatMap_append]
  split
  · next same => rw [List.filter_cons_of_pos (by simpa using same), List.filter_nil,
      List.flatMap_singleton]
  · next other => rw [List.filter_cons_of_neg (by simpa using other), List.filter_nil,
      List.flatMap_nil, List.append_nil]

theorem bodiesOf_eq_nil (new : A ∉ rows.map (·.lhs)) : bodiesOf rows A = [] := by
  have none : rows.filter (·.lhs = A) = [] := by
    rw [List.filter_eq_nil_iff]
    intro row mem same
    exact new (List.mem_map.mpr ⟨row, mem, of_decide_eq_true same⟩)
  rw [bodiesOf, none, List.flatMap_nil]

theorem lhs_merged (rows : List (Rule Body)) :
    (merged rows).map (·.lhs) = (rows.map (·.lhs)).eraseDups := by
  rw [merged, List.map_map]
  exact List.map_id _

/-! ### Filling the table -/

/-- **Opening a row** for a left-hand side is merging a row without bodies. -/
theorem openRow_merged (rows : List (Rule Body)) (A : Name) :
    openRow (merged rows) A = merged (rows ++ [⟨A, []⟩]) := by
  have same (B : Name) : bodiesOf (rows ++ [⟨A, []⟩]) B = bodiesOf rows B := by
    rw [bodiesOf_concat, List.append_nil, ite_self]
  have names : ((rows ++ [(⟨A, []⟩ : Rule Body)]).map (·.lhs)).eraseDups =
      if A ∈ (rows.map (·.lhs)).eraseDups then (rows.map (·.lhs)).eraseDups
      else (rows.map (·.lhs)).eraseDups ++ [A] := by
    rw [List.map_append, ← eraseDups_eraseDups_append, ← eraseDups_concat (nodup_eraseDups _)]
    rfl
  rw [openRow, lhs_merged, merged, merged, names]
  simp only [same]
  split
  · rfl
  · next new =>
    rw [List.mem_eraseDups] at new
    rw [List.map_append, List.map_singleton, bodiesOf_eq_nil new]

/-- **A body more** is one at the end of the last row, if its left-hand side is that of the row. -/
theorem pushBody_merged (rows : List (Rule Body)) (A : Name) (taken : List Body) (body : Body) :
    pushBody A (merged (rows ++ [⟨A, taken⟩])) body = merged (rows ++ [⟨A, taken ++ [body]⟩]) := by
  have names (bodies : List Body) :
      (rows ++ [(⟨A, bodies⟩ : Rule Body)]).map (·.lhs) = rows.map (·.lhs) ++ [A] :=
    List.map_append
  rw [pushBody, merged, merged, List.map_map, names, names]
  refine List.map_congr_left fun B _ => ?_
  simp only [Function.comp_apply, bodiesOf_concat, eq_comm (a := B)]
  split
  · next same => rw [List.append_assoc, same]
  · rfl

/-- **A rule more** is a row more to be merged. -/
theorem mergeRule_merged (nonterminals : List Name) (rows : List (Rule Body)) (rule : RuleLine) :
    mergeRule nonterminals (merged rows) rule = merged (rows ++ [tagged nonterminals rule]) := by
  rw [mergeRule, openRow_merged]
  exact foldl_eq_state (pushBody_merged rows rule.lhs) [] (rule.bodies.map (symbols nonterminals))

theorem mergeRules_eq (nonterminals : List Name) (rules : List RuleLine) :
    mergeRules nonterminals rules = merged (rules.map (tagged nonterminals)) := by
  have each (taken : List RuleLine) (rule : RuleLine) :
      mergeRule nonterminals (merged (taken.map (tagged nonterminals))) rule
        = merged ((taken ++ [rule]).map (tagged nonterminals)) := by
    rw [mergeRule_merged, List.map_append, List.map_singleton]
  exact foldl_eq_state each [] rules

/-! ### Merging twice -/

/-- No body is lost, and those of one left-hand side stay in order. -/
theorem bodiesOf_merged (rows : List (Rule Body)) (A : Name) :
    bodiesOf (merged rows) A = bodiesOf rows A := by
  by_cases old : A ∈ rows.map (·.lhs)
  · have row : ⟨A, bodiesOf rows A⟩ ∈ merged rows :=
      List.mem_map.mpr ⟨A, List.mem_eraseDups.mpr old, rfl⟩
    have alone : (merged rows).filter (·.lhs = A) = [⟨A, bodiesOf rows A⟩] :=
      filter_key_eq (lhs_merged rows ▸ nodup_eraseDups _) row
    rw [bodiesOf, alone, List.flatMap_singleton]
  · have new : A ∉ (merged rows).map (·.lhs) := by rwa [lhs_merged, List.mem_eraseDups]
    rw [bodiesOf_eq_nil new, bodiesOf_eq_nil old]

/-- Merged rows fit where the rows do. -/
theorem rowFits_of_mem_merged (fits : ∀ row ∈ rows, RowFits nonterminals terminals row) :
    ∀ row ∈ merged rows, RowFits nonterminals terminals row := by
  intro row mem
  obtain ⟨A, hA, rfl⟩ := List.mem_map.mp mem
  obtain ⟨first, hfirst, rfl⟩ := List.mem_map.mp (List.mem_eraseDups.mp hA)
  refine ⟨(fits first hfirst).lhs_mem, fun body hbody => ?_⟩
  -- the body was given by one of the rows
  obtain ⟨own, hown, _, hbody⟩ := mem_gather.mp (List.mem_eraseDups.mpr hbody)
  exact (fits own hown).declared body hbody

/-- **Merged rows declare the same grammar**, if all rows fit. Where some do not, merging can bring
the fault of a later row in front of others. -/
theorem ofRows?_merged (fits : ∀ row ∈ rows, RowFits nonterminals terminals row) (start : Name) :
    ofRows? nonterminals terminals (merged rows) start
      = ofRows? nonterminals terminals rows start := by
  have none {rows : List (Rule Body)} (fits : ∀ row ∈ rows, RowFits nonterminals terminals row) :
      rows.findSome? (rowFault? (isDeclared nonterminals terminals)) = .none :=
    List.findSome?_eq_none_iff.mpr fun row mem =>
      rowFault?_isDeclared_eq_none_iff.mpr (fits row mem)
  have faults : fault? nonterminals terminals (merged rows) start
      = fault? nonterminals terminals rows start := by
    rw [fault?, fault?, none fits, none (rowFits_of_mem_merged fits)]
  have gathered (A : Name) : gather (merged rows) A = gather rows A :=
    congrArg List.eraseDups (bodiesOf_merged rows A)
  rw [ofRows?_eq, ofRows?_eq, faults]
  simp only [gatherAll, gathered]

end Grammar

end ContextFree

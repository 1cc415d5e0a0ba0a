import ContextFree.Grammar.Source
import ContextFree.Proofs.FirstFault
import ContextFree.Proofs.WellFormed
import Mathlib.Data.List.Basic
import Mathlib.Data.Set.List
import Mathlib.Tactic.Lift

/-!
# Declarations by bare names

A declaration by bare names does not tell which symbols are terminals; this is told by the
alphabets. Before anything else is looked at, each text becomes a name and each name in a body
becomes a symbol of the alphabet that declares it, and only then is it seen whether the parts fit
together. So what comes of the declaration is what comes of the same rows with their names told
apart (`Grammar.ofNames?_eq_ofRows?`), and this is so whether or not the parts fit.

Two things about names stand in the way of reading a declaration at all: there is no empty name, and
a name in a body has to be declared. The sign of the empty word is read apart from all names
(`Grammar.NamesDeclared`). Nothing is left then of one kind of fault: when the rows have been read,
all of their symbols are declared (`Grammar.ofRows?_ne_undeclaredSymbol`).

A well-formed grammar declares no name twice, so it can be listed by bare names and is declared
again by this list, unless one of its symbols is named like the empty word
(`Grammar.WellFormed.ofNames?_byNames`).
-/

namespace ContextFree

namespace RuleLine

/-- The rule as a row of names, as it is given in a declaration. -/
def row (rule : RuleLine) : String × List (List String) :=
  (rule.lhs.text, rule.bodies.map (·.map Name.text))

end RuleLine

/-! ### Texts as names -/

/-- A text that is not empty is a name. -/
instance : CanLift String Name Name.text (· ≠ "") where
  prf text ne := ⟨⟨text, ne⟩, rfl⟩

/-- A row without empty texts is a row of names. -/
instance : CanLift (String × List (List String)) RuleLine RuleLine.row
    (fun row => row.1 ≠ "" ∧ ∀ body ∈ row.2, ∀ a ∈ body, a ≠ "") where
  prf := by
    rintro ⟨lhs, bodies⟩ ⟨lhs_ne, bodies_ne⟩
    lift lhs to Name using lhs_ne
    lift bodies to List (List Name) using bodies_ne
    exact ⟨⟨lhs, bodies⟩, rfl⟩

theorem Name.text_injective : Function.Injective Name.text := fun _ _ => Name.ext

namespace Grammar

open RuleLine

variable {G : Grammar} {nonterminals terminals : List Name} {rules : List RuleLine}
  {rows : List (Rule Body)} {body : List Name} {a lhs start : Name}

/-- The row with its names told apart: the declared non-terminals are non-terminals, and all other
names are terminals. -/
def tagged (nonterminals : List Name) (rule : RuleLine) : Rule Body :=
  ⟨rule.lhs, rule.bodies.map (symbols nonterminals)⟩

/-- The row with its symbols as bare names. -/
def byNames (rule : Rule Body) : String × List (List String) :=
  (rule.lhs.text, rule.bodies.map (·.map (·.name.text)))

/-- The texts of a declaration are names, and the names in its bodies are declared, except in a body
that is the sign of the empty word and nothing else. -/
structure NamesDeclared (nonterminals terminals : List String)
    (rows : List (String × List (List String))) (start : String) : Prop where
  nonterminals_ne : ∀ a ∈ nonterminals, a ≠ ""
  terminals_ne : ∀ a ∈ terminals, a ≠ ""
  lhs_ne : ∀ row ∈ rows, row.1 ≠ ""
  start_ne : start ≠ ""
  declared : ∀ row ∈ rows, ∀ body ∈ row.2,
    body = [emptySign] ∨ ∀ a ∈ body, a ∈ nonterminals ∨ a ∈ terminals

/-! ### Names are told apart -/

theorem readName_text (a : Name) : readName a.text = .ok a := by
  rw [readName, Name.ofString?_eq_some_iff.mpr rfl]

theorem mapM_readName (names : List Name) : (names.map Name.text).mapM readName = .ok names := by
  have read : (names.map Name.text).mapM readName = .ok (names.map id) :=
    mapM_map_eq_ok fun a _ => readName_text a
  rwa [List.map_id] at read

theorem classify?_text (declared : IsDeclaredIn nonterminals terminals
      (if a ∈ nonterminals then .nonterminal a else .terminal a)) :
    classify? nonterminals terminals a.text
      = some (if a ∈ nonterminals then .nonterminal a else .terminal a) := by
  have name : Name.ofString? a.text = some a := Name.ofString?_eq_some_iff.mpr rfl
  rw [classify?, name, Option.bind_eq_bind, Option.bind_some]
  split at declared
  · next nonterminal => rw [if_pos nonterminal, if_pos nonterminal]
  · next other =>
    have terminal : a ∈ terminals := declared
    rw [if_neg other, if_neg other, if_pos terminal]

theorem map_text_eq_emptySign_iff : body.map Name.text = [emptySign] ↔ body = [emptyName] :=
  Name.text_injective.list_map.eq_iff (b := [emptyName])

/-- A body of declared names is read as the symbols that they are. -/
theorem readBody_eq_ok (lhs : Name)
    (declared : ∀ s ∈ symbols nonterminals body, IsDeclaredIn nonterminals terminals s) :
    readBody nonterminals terminals lhs (body.map Name.text) = .ok (symbols nonterminals body) := by
  unfold readBody symbols
  -- both tell the sign of the empty word apart before they look at any name
  simp only [map_text_eq_emptySign_iff]
  split
  · rfl
  · next other =>
    refine mapM_map_eq_ok fun a ha => ?_
    rw [symbols, if_neg other] at declared
    rw [classify?_text (declared _ (List.mem_map_of_mem ha))]

/-- The names in a body are declared as symbols if they are declared at all. -/
theorem isDeclaredIn_of_mem_symbols
    (declared : body = [emptyName] ∨ ∀ a ∈ body, a ∈ nonterminals ∨ a ∈ terminals) :
    ∀ s ∈ symbols nonterminals body, IsDeclaredIn nonterminals terminals s := by
  intro s mem
  unfold symbols at mem
  split at mem
  · cases mem
  · next other =>
    obtain ⟨a, ha, rfl⟩ := List.mem_map.mp mem
    have either := declared.resolve_left other a ha
    split
    · next nonterminal => exact nonterminal
    · next nonterminal => exact either.resolve_left nonterminal

/-- **A declaration by bare names is one by symbols**, if the names in the bodies are declared. Each
row is read as the row with its names told apart. -/
theorem ofNames?_eq_ofRows? (declared : ∀ rule ∈ rules, ∀ body ∈ rule.bodies,
      ∀ s ∈ symbols nonterminals body, IsDeclaredIn nonterminals terminals s) (start : Name) :
    ofNames? (nonterminals.map Name.text) (terminals.map Name.text) (rules.map row) start.text =
      ofRows? nonterminals terminals (rules.map (tagged nonterminals)) start := by
  have rows : (rules.map row).mapM (readRow nonterminals terminals)
      = .ok (rules.map (tagged nonterminals)) := by
    refine mapM_map_eq_ok fun rule hrule => ?_
    have bodies := mapM_map_eq_ok fun body hbody =>
      readBody_eq_ok rule.lhs (declared rule hrule body hbody)
    rw [readRow, row, readName_text]
    show (rule.bodies.map _).mapM (readBody _ _ rule.lhs) >>= _ = _
    rw [bodies]
    rfl
  rw [ofNames?, mapM_readName, mapM_readName]
  show (rules.map row).mapM (readRow nonterminals terminals) >>= _ = _
  rw [rows, readName_text]
  rfl

/-! ### Declared symbols -/

/-- A name is told to be a symbol only if the alphabet of that kind has it. -/
theorem isDeclaredIn_of_classify?_eq_some {text : String} {s : Symbol}
    (h : classify? nonterminals terminals text = some s) :
    IsDeclaredIn nonterminals terminals s := by
  obtain ⟨name, -, h⟩ := Option.bind_eq_some_iff.mp h
  split at h
  · next nonterminal =>
    cases h
    exact nonterminal
  · split at h
    · next terminal =>
      cases h
      exact terminal
    · cases h

theorem isDeclaredIn_of_readBody_eq_ok {texts : List String} {body : Body}
    (h : readBody nonterminals terminals lhs texts = .ok body) :
    ∀ s ∈ body, IsDeclaredIn nonterminals terminals s := by
  intro s mem
  unfold readBody at h
  split at h
  · cases h
    cases mem
  · obtain ⟨text, -, read⟩ := exists_of_mem_mapM h mem
    split at read
    · next classified =>
      cases read
      exact isDeclaredIn_of_classify?_eq_some classified
    · cases read

/-- When rows of names have been read, all symbols in their bodies are declared. -/
theorem isDeclaredIn_of_readRow_eq_ok {texts : String × List (List String)} {row : Rule Body}
    (h : readRow nonterminals terminals texts = .ok row) :
    ∀ body ∈ row.bodies, ∀ s ∈ body, IsDeclaredIn nonterminals terminals s := by
  intro body mem
  obtain ⟨lhs, -, h⟩ := exists_of_bind_eq_ok h
  obtain ⟨bodies, read, h⟩ := exists_of_bind_eq_ok h
  cases h
  obtain ⟨texts, -, read⟩ := exists_of_mem_mapM read mem
  exact isDeclaredIn_of_readBody_eq_ok read

/-- Where all symbols of the bodies are declared, the fault is another one. -/
theorem ofRows?_ne_undeclaredSymbol (declared : ∀ row ∈ rows, ∀ body ∈ row.bodies, ∀ s ∈ body,
      IsDeclaredIn nonterminals terminals s) (lhs : Name) (body : List String) (symbol : String) :
    ofRows? nonterminals terminals rows start ≠ .error (.undeclaredSymbol lhs body symbol) := by
  intro refused
  -- only the fault of a row can be such a one, and only if one of its symbols is not declared
  cases ofRows?_eq_error_iff.mp refused with
  | row _ _ first rowFault =>
    cases rowFault with
    | undeclaredSymbol _ firstBody firstSymbol =>
      have fine := declared _ first.mem _ firstBody.mem _ firstSymbol.mem
      exact absurd fine firstSymbol.holds

/-! ### Listing a grammar by names -/

/-- The rule with the names of its symbols. -/
def named (rule : Rule Body) : RuleLine := ⟨rule.lhs, rule.bodies.map (·.map Symbol.name)⟩

theorem row_named (rule : Rule Body) : (named rule).row = byNames rule := by
  simp only [row, named, byNames, List.map_map, Function.comp_def]

/-- The names of declared symbols tell which symbols they are. -/
theorem WellFormed.symbols_names (wf : G.WellFormed)
    (nonempty : ∀ s, G.Declares s → s.name ≠ emptyName) {body : Body}
    (declared : ∀ s ∈ body, G.Declares s) :
    symbols G.nonterminals (body.map Symbol.name) = body := by
  -- the names are not taken for the sign of the empty word
  have other : body.map Symbol.name ≠ [emptyName] := by
    intro alone
    have mem : emptyName ∈ body.map Symbol.name := alone ▸ List.mem_cons_self
    obtain ⟨s, hs, name⟩ := List.mem_map.mp mem
    exact nonempty s (declared s hs) name
  -- a terminal is not taken for a non-terminal, since no name is declared twice
  have same : ∀ s ∈ body, (if s.name ∈ G.nonterminals then Symbol.nonterminal s.name
      else Symbol.terminal s.name) = s := by
    intro s hs
    cases s with
    | terminal a => exact if_neg (wf.disjoint a (declared _ hs))
    | nonterminal A => exact if_pos (declared _ hs)
  rw [symbols, if_neg other, List.map_map]
  exact (List.map_congr_left same).trans (List.map_id body)

theorem WellFormed.tagged_named (wf : G.WellFormed)
    (nonempty : ∀ s, G.Declares s → s.name ≠ emptyName) {rule : Rule Body}
    (hrule : rule ∈ G.rules) :
    tagged G.nonterminals (named rule) = rule := by
  have bodies : (rule.bodies.map (·.map Symbol.name)).map (symbols G.nonterminals)
      = rule.bodies := by
    rw [List.map_map]
    have same : ∀ body ∈ rule.bodies, symbols G.nonterminals (body.map Symbol.name) = body :=
      fun body hbody => wf.symbols_names nonempty (wf.declared rule hrule body hbody)
    exact (List.map_congr_left same).trans (List.map_id _)
  rw [tagged, named, bodies]

/-- **A grammar is declared by its names**, if none of its symbols is named like the empty word. -/
theorem WellFormed.ofNames?_byNames (wf : G.WellFormed)
    (nonempty : ∀ s, G.Declares s → s.name ≠ emptyName) :
    ofNames? (G.nonterminals.map Name.text) (G.terminals.map Name.text) (G.rules.map byNames)
      G.start.text = .ok G := by
  have rows : (G.rules.map named).map row = G.rules.map byNames := by
    rw [List.map_map]
    exact List.map_congr_left fun rule _ => row_named rule
  have rules : (G.rules.map named).map (tagged G.nonterminals) = G.rules := by
    rw [List.map_map]
    have same : ∀ rule ∈ G.rules, tagged G.nonterminals (named rule) = rule :=
      fun rule hrule => wf.tagged_named nonempty hrule
    exact (List.map_congr_left same).trans (List.map_id G.rules)
  have declared : ∀ rule ∈ G.rules.map named, ∀ body ∈ rule.bodies,
      ∀ s ∈ symbols G.nonterminals body, IsDeclaredIn G.nonterminals G.terminals s := by
    intro line hline body hbody s hs
    obtain ⟨rule, hrule, rfl⟩ := List.mem_map.mp hline
    obtain ⟨own, hown, rfl⟩ := List.mem_map.mp hbody
    have declared := wf.declared rule hrule own hown
    rw [wf.symbols_names nonempty declared] at hs
    cases s with
    | terminal a => exact declared _ hs
    | nonterminal A => exact declared _ hs
  rw [← rows, ofNames?_eq_ofRows? declared, rules]
  exact wellFormed_iff_ofRows?_eq_ok.mp wf

/-! ### What a declaration by bare names comes to -/

/-- The texts are those of names, and the names in the bodies are declared as the symbols that they
are told to be. -/
theorem NamesDeclared.exists_names {nonterminals terminals : List String}
    {rows : List (String × List (List String))} {start : String}
    (h : NamesDeclared nonterminals terminals rows start) :
    ∃ (N T : List Name) (rules : List RuleLine) (S : Name),
      N.map Name.text = nonterminals ∧ T.map Name.text = terminals ∧ rules.map row = rows ∧
      S.text = start ∧ ∀ rule ∈ rules, ∀ body ∈ rule.bodies,
        ∀ s ∈ symbols N body, IsDeclaredIn N T s := by
  obtain ⟨nonterminals_ne, terminals_ne, lhs_ne, start_ne, declared⟩ := h
  -- a name in a body is not empty, since it is declared or it is the sign of the empty word
  have rows_ne : ∀ row ∈ rows, row.1 ≠ "" ∧ ∀ body ∈ row.2, ∀ a ∈ body, a ≠ "" := by
    refine fun row hrow => ⟨lhs_ne row hrow, fun body hbody a ha => ?_⟩
    obtain rfl | declared := declared row hrow body hbody
    · rw [List.mem_singleton.mp ha]
      decide
    · exact (declared a ha).elim (nonterminals_ne a) (terminals_ne a)
  lift nonterminals to List Name using nonterminals_ne
  lift terminals to List Name using terminals_ne
  lift rows to List RuleLine using rows_ne
  lift start to Name using start_ne
  refine ⟨nonterminals, terminals, rows, start, rfl, rfl, rfl, rfl, ?_⟩
  intro rule hrule body hbody
  have own := declared rule.row (List.mem_map_of_mem hrule) (body.map Name.text)
    (List.mem_map_of_mem hbody)
  simp only [map_text_eq_emptySign_iff, List.forall_mem_map,
    List.mem_map_of_injective Name.text_injective] at own
  exact isDeclaredIn_of_mem_symbols own

/-- **Bare names are as good as symbols.** A well-formed grammar is declared again by its names. Of
any names that are declared, and also if they do not make a grammar, there comes what comes of the
same rows with each name told apart; and if rows can be read at all, then none of their symbols is
refused for not being declared. -/
theorem ofNames?_outcome :
    (∀ G : Grammar, G.WellFormed → (∀ s, G.Declares s → s.name ≠ emptyName) →
      ofNames? (G.nonterminals.map Name.text) (G.terminals.map Name.text) (G.rules.map byNames)
        G.start.text = .ok G) ∧
    (∀ nonterminals terminals rows start, NamesDeclared nonterminals terminals rows start →
      ∃ (N T : List Name) (rules : List RuleLine) (S : Name),
        N.map Name.text = nonterminals ∧ T.map Name.text = terminals ∧ rules.map row = rows ∧
        S.text = start ∧
        ofNames? nonterminals terminals rows start = ofRows? N T (rules.map (tagged N)) S ∧
        ∀ lhs body symbol, ofNames? nonterminals terminals rows start ≠
          .error (.undeclaredSymbol lhs body symbol)) ∧
    ∀ (N T : List Name) (texts : List (String × List (List String))) (rows : List (Rule Body))
      (S : Name), texts.mapM (readRow N T) = .ok rows →
      ∀ lhs body symbol, ofRows? N T rows S ≠ .error (.undeclaredSymbol lhs body symbol) := by
  refine ⟨fun G wf nonempty => wf.ofNames?_byNames nonempty, ?_, ?_⟩
  · intro nonterminals terminals rows start h
    obtain ⟨N, T, rules, S, rfl, rfl, rfl, rfl, declared⟩ := h.exists_names
    have same := ofNames?_eq_ofRows? declared S
    refine ⟨N, T, rules, S, rfl, rfl, rfl, rfl, same, ?_⟩
    rw [same]
    refine ofRows?_ne_undeclaredSymbol fun row hrow body hbody => ?_
    obtain ⟨rule, hrule, rfl⟩ := List.mem_map.mp hrow
    obtain ⟨own, hown, rfl⟩ := List.mem_map.mp hbody
    exact declared rule hrule own hown
  · -- whatever is read is declared, so that the fault is another one
    intro N T texts rows S read
    refine ofRows?_ne_undeclaredSymbol fun row hrow => ?_
    obtain ⟨_, _, read⟩ := exists_of_mem_mapM read hrow
    exact isDeclaredIn_of_readRow_eq_ok read

/-- The rows `S → S b | ε` and `A → ε`, by bare names. -/
def clashing : List (String × List (List String)) :=
  [("S", [["S", "b"], ["ε"]]), ("A", [["ε"]])]

/-- The brackets are declared by their names. With `b` in both alphabets and no `A` among the
non-terminals, the rows are refused as the same rows of symbols are; and rows that have been read
are not refused for a symbol. -/
theorem ofNames?_outcome_clashing :
    ofNames? ["S"] ["(", ")"] [("S", [["(", "S", ")", "S"], []])] "S" = .ok brackets ∧
    (∃ (N T : List Name) (rules : List RuleLine) (S : Name),
      N.map Name.text = ["S", "b"] ∧ T.map Name.text = ["b"] ∧ rules.map row = clashing ∧
      S.text = "S" ∧
      ofNames? ["S", "b"] ["b"] clashing "S" = ofRows? N T (rules.map (tagged N)) S) ∧
    ofRows? [.ofCons 'S' []] [] [⟨.ofCons 'A' [], [[.nonterminal (.ofCons 'S' [])]]⟩]
      (.ofCons 'S' []) ≠ .error (.undeclaredSymbol (.ofCons 'A' []) ["S"] "S") := by
  have nonempty : ∀ s, brackets.Declares s → s.name ≠ emptyName := by
    rintro (a | A) mem
    · exact (by decide : ∀ a ∈ brackets.terminals, a ≠ emptyName) a mem
    · exact (by decide : ∀ A ∈ brackets.nonterminals, A ≠ emptyName) A mem
  have declared : NamesDeclared ["S", "b"] ["b"] clashing "S" :=
    ⟨by decide, by decide, by decide, by decide, by decide⟩
  have read : [("A", [["S"]])].mapM (readRow [.ofCons 'S' []] []) =
      .ok [⟨.ofCons 'A' [], [[.nonterminal (.ofCons 'S' [])]]⟩] := by decide
  obtain ⟨N, T, rules, S, hN, hT, hrules, hS, same, -⟩ := ofNames?_outcome.2.1 _ _ _ _ declared
  exact ⟨ofNames?_outcome.1 brackets brackets_wellFormed nonempty,
    ⟨N, T, rules, S, hN, hT, hrules, hS, same⟩, ofNames?_outcome.2.2 _ _ _ _ _ read _ _ _⟩

end Grammar

end ContextFree

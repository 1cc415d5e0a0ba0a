import ContextFree.Proofs.Lines
import ContextFree.Proofs.Merging

/-!
# Rules declare what they use

A text declares no alphabets; they are read off its rules. A name is a non-terminal if it is the
left-hand side of a rule, before or after the place where it is used, or if it begins with a capital
letter, and a terminal otherwise. So every name is put in one alphabet and none in both, the bodies
consist of declared symbols, and the parts always make a grammar
(`Grammar.exists_ofRuleLines?_eq_ok`). The only name that is left out is the sign of the empty word,
which is no symbol of a body that it is not alone in.

The names are placed one after the other, and while they are, the non-terminals become more. They
become more by capitalized names only, and no other name is ever compared with those; so each name
is placed as if all of them were known (`Grammar.place_alphabetsAfter`), and the alphabets can be
written down without placing anything (`Grammar.alphabets_eq`). The bodies are told apart only after
that, when all non-terminals are known, and merged as they are (`Grammar.ofRuleLines?_eq`).

The same grammar is declared by listing the two alphabets and the rules by bare names: each name is
then told to be what it was (`Grammar.ofNames?_eq_ofRuleLines?`).
-/

namespace ContextFree

namespace Grammar

open Text RuleLine

variable {rules : List RuleLine} {rule : RuleLine} {body : List Name} {a start : Name}

/-! ### The two alphabets -/

/-- The names in the bodies of the rules, in the order in which they are used. -/
def usedNames (rules : List RuleLine) : List Name :=
  (rules.flatMap (·.bodies.flatten)).filter (· ≠ emptyName)

/-- The name stands somewhere in the rules. -/
def OccursIn (rules : List RuleLine) (a : Name) : Prop :=
  ∃ rule ∈ rules, rule.lhs = a ∨ ∃ body ∈ rule.bodies, a ∈ body

/-- The name is the left-hand side of a rule, or it begins with a capital letter. -/
def IsNonterminalIn (rules : List RuleLine) (a : Name) : Prop :=
  (∃ rule ∈ rules, rule.lhs = a) ∨ ∃ c ∈ a.text.toList.head?, 'A' ≤ c ∧ c ≤ 'Z'

theorem isCapitalized_iff : isCapitalized a ↔ ∃ c ∈ a.text.toList.head?, 'A' ≤ c ∧ c ≤ 'Z' := by
  rw [isCapitalized, Option.any_eq_true]
  exact exists_congr fun c => and_congr_right fun _ => decide_eq_true_iff

/-- The alphabets when some names from the bodies have been placed: the non-terminals are the
left-hand sides and the capitalized names, the terminals are the other names. -/
def alphabetsAfter (leftSides taken : List Name) : Alphabets where
  nonterminals := (leftSides ++ taken.filter fun a => a ≠ emptyName ∧ isCapitalized a).eraseDups
  terminals := ([] ++ taken.filter fun a =>
    a ≠ emptyName ∧ ¬isCapitalized a ∧ a ∉ leftSides).eraseDups

theorem nonterminals_place (known : Alphabets) (a : Name) :
    (known.place a).nonterminals =
      if a ≠ emptyName ∧ isCapitalized a then addName known.nonterminals a
      else known.nonterminals := by
  unfold Alphabets.place addName
  grind

theorem terminals_place (known : Alphabets) (a : Name) :
    (known.place a).terminals =
      if a ≠ emptyName ∧ ¬isCapitalized a ∧ a ∉ known.nonterminals then addName known.terminals a
      else known.terminals := by
  unfold Alphabets.place
  grind

/-- One name more, if it is one of those that are listed, is listed after the others. -/
theorem addName_eraseDups (names taken : List Name) (p : Name → Prop) [DecidablePred p] (a : Name) :
    (if p a then addName (names ++ taken.filter p).eraseDups a
      else (names ++ taken.filter p).eraseDups) = (names ++ (taken ++ [a]).filter p).eraseDups := by
  rw [List.filter_append, ← List.append_assoc]
  split
  · next listed =>
    rw [addName, ← eraseDups_concat (nodup_eraseDups _), eraseDups_eraseDups_append,
      List.filter_cons_of_pos (by simpa using listed), List.filter_nil]
  · next other =>
    rw [List.filter_cons_of_neg (by simpa using other), List.filter_nil, List.append_nil]

/-- **One name more is placed.** Whether it is a terminal is asked of the non-terminals that are
known by now; they are more than the left-hand sides, but only by capitalized names. -/
theorem place_alphabetsAfter (leftSides taken : List Name) (a : Name) :
    (alphabetsAfter leftSides taken).place a = alphabetsAfter leftSides (taken ++ [a]) := by
  have known : ¬isCapitalized a →
      (a ∈ (alphabetsAfter leftSides taken).nonterminals ↔ a ∈ leftSides) := by
    intro other
    simp [alphabetsAfter, List.mem_eraseDups, other]
  have terminal : (a ≠ emptyName ∧ ¬isCapitalized a ∧
        a ∉ (alphabetsAfter leftSides taken).nonterminals) ↔
      a ≠ emptyName ∧ ¬isCapitalized a ∧ a ∉ leftSides :=
    and_congr_right fun _ => and_congr_right fun other => not_congr (known other)
  refine Alphabets.ext ?_ ?_
  · rw [nonterminals_place]
    exact addName_eraseDups leftSides taken (fun a => a ≠ emptyName ∧ isCapitalized a) a
  · rw [terminals_place, if_congr terminal rfl rfl]
    exact addName_eraseDups [] taken (fun a => a ≠ emptyName ∧ ¬isCapitalized a ∧ a ∉ leftSides) a

/-- **The alphabets of rules** are those of all names that are used. -/
theorem alphabets_eq (rules : List RuleLine) :
    alphabets rules =
      ⟨(rules.map (·.lhs) ++ (usedNames rules).filter isCapitalized).eraseDups,
        ((usedNames rules).filter fun a =>
          ¬isCapitalized a ∧ a ∉ rules.map (·.lhs)).eraseDups⟩ := by
  have begin : (⟨(rules.map (·.lhs)).eraseDups, []⟩ : Alphabets)
      = alphabetsAfter (rules.map (·.lhs)) [] := by
    rw [alphabetsAfter, List.filter_nil, List.filter_nil, List.append_nil]
    rfl
  -- the sign of the empty word is passed over
  have used (p : Name → Prop) [DecidablePred p] :
      (rules.flatMap (·.bodies.flatten)).filter (fun a => a ≠ emptyName ∧ p a)
        = (usedNames rules).filter p := by
    rw [usedNames, List.filter_filter]
    exact List.filter_congr fun a _ => by rw [Bool.decide_and, Bool.and_comm]
  rw [alphabets, begin, foldl_eq_state (place_alphabetsAfter _), alphabetsAfter, List.nil_append,
    List.nil_append, used, used]
  simp only [Bool.decide_eq_true]

theorem mem_usedNames_iff :
    a ∈ usedNames rules ↔ (∃ rule ∈ rules, ∃ body ∈ rule.bodies, a ∈ body) ∧ a ≠ emptyName := by
  simp [usedNames]

theorem mem_nonterminals_alphabets_iff :
    a ∈ (alphabets rules).nonterminals ↔
      (∃ rule ∈ rules, rule.lhs = a) ∨ a ∈ usedNames rules ∧ isCapitalized a := by
  simp [alphabets_eq, List.mem_eraseDups]

theorem mem_terminals_alphabets_iff :
    a ∈ (alphabets rules).terminals ↔
      a ∈ usedNames rules ∧ a ∉ (alphabets rules).nonterminals := by
  rw [mem_nonterminals_alphabets_iff]
  simp only [alphabets_eq, List.mem_eraseDups, List.mem_filter, decide_eq_true_eq, List.mem_map]
  grind

/-- Each name is put where it belongs, except for the sign of the empty word. -/
theorem mem_alphabets_iff (placed : ∀ rule ∈ rules, rule.hasMisplacedEmpty = false) :
    (a ∈ (alphabets rules).nonterminals ↔
        OccursIn rules a ∧ a ≠ emptyName ∧ IsNonterminalIn rules a) ∧
      (a ∈ (alphabets rules).terminals ↔
        OccursIn rules a ∧ a ≠ emptyName ∧ ¬IsNonterminalIn rules a) := by
  have nonempty_of_left : (∃ rule ∈ rules, rule.lhs = a) → a ≠ emptyName := by
    rintro ⟨rule, hrule, rfl⟩
    exact (hasMisplacedEmpty_eq_false_iff.mp (placed rule hrule)).1
  have occurs : OccursIn rules a ↔
      (∃ rule ∈ rules, rule.lhs = a) ∨ ∃ rule ∈ rules, ∃ body ∈ rule.bodies, a ∈ body := by
    simp only [OccursIn, and_or_left, exists_or]
  rw [mem_terminals_alphabets_iff, mem_nonterminals_alphabets_iff, mem_usedNames_iff,
    isCapitalized_iff, IsNonterminalIn, occurs]
  by_cases left : ∃ rule ∈ rules, rule.lhs = a
  · -- a left-hand side is a non-terminal wherever else it stands
    simp only [left, nonempty_of_left left, true_or, not_true_eq_false, and_false, ne_eq,
      not_false_eq_true, and_self]
  · -- any other name is told by its first letter
    simp only [left, false_or, and_assoc, true_and]
    refine and_congr_right fun used => and_congr_right fun nonempty => ?_
    simp only [used, nonempty, ne_eq, not_false_eq_true, true_and]

/-- The non-terminals are in order: the left-hand sides by the first rule that each of them has,
then the others by the first use. -/
theorem nonterminals_alphabets_eq (rules : List RuleLine) :
    (alphabets rules).nonterminals = (rules.map (·.lhs)).eraseDups ++
      ((usedNames rules).filter fun a => isCapitalized a ∧ a ∉ rules.map (·.lhs)).eraseDups := by
  rw [alphabets_eq]
  show List.eraseDups _ = _
  rw [List.eraseDups_append, List.removeAll, List.filter_filter]
  congr 2
  refine List.filter_congr fun a _ => ?_
  rw [Bool.eq_iff_iff]
  simp [and_comm]

/-! ### The parts make a grammar -/

/-- The names in the bodies are declared, since all of them are used. -/
theorem isDeclaredIn_of_placed (placed : rule.hasMisplacedEmpty = false) (hrule : rule ∈ rules)
    (hbody : body ∈ rule.bodies) :
    ∀ s ∈ symbols (alphabets rules).nonterminals body,
      IsDeclaredIn (alphabets rules).nonterminals (alphabets rules).terminals s := by
  refine isDeclaredIn_of_mem_symbols ?_
  by_cases empty : emptyName ∈ body
  · exact .inl ((hasMisplacedEmpty_eq_false_iff.mp placed).2 body hbody empty)
  · refine .inr fun a ha => ?_
    have nonempty : a ≠ emptyName := ne_of_mem_of_not_mem ha empty
    have used := mem_usedNames_iff.mpr ⟨⟨rule, hrule, body, hbody, ha⟩, nonempty⟩
    rw [mem_terminals_alphabets_iff]
    exact (em _).imp_right fun other => ⟨used, other⟩

/-- In every row the names are told to be what they are declared as. -/
theorem rowFits_of_mem_tagged (placed : ∀ rule ∈ rules, rule.hasMisplacedEmpty = false) :
    ∀ row ∈ rules.map (tagged (alphabets rules).nonterminals),
      RowFits (alphabets rules).nonterminals (alphabets rules).terminals row := by
  intro row mem
  obtain ⟨rule, hrule, rfl⟩ := List.mem_map.mp mem
  refine ⟨mem_nonterminals_alphabets_iff.mpr (.inl ⟨rule, hrule, rfl⟩), fun symbols mem => ?_⟩
  obtain ⟨body, hbody, rfl⟩ := List.mem_map.mp mem
  exact isDeclaredIn_of_placed (placed rule hrule) hrule hbody

/-- **Rules are rows.** It makes no difference that rules of one left-hand side are merged before
they are declared. -/
theorem ofRuleLines?_eq (placed : ∀ rule ∈ rules, rule.hasMisplacedEmpty = false) (start : Name) :
    ofRuleLines? rules start = ofRows? (alphabets rules).nonterminals (alphabets rules).terminals
      (rules.map (tagged (alphabets rules).nonterminals)) start := by
  rw [← ofRows?_merged (rowFits_of_mem_tagged placed), ← mergeRules_eq]
  rfl

/-- **The parts that are read off rules make a grammar.** -/
theorem exists_ofRuleLines?_eq_ok (placed : ∀ rule ∈ rules, rule.hasMisplacedEmpty = false)
    (hrule : rule ∈ rules) :
    ∃ G, ofRuleLines? rules rule.lhs = .ok G ∧ G.start = rule.lhs ∧
      G.nonterminals = (alphabets rules).nonterminals ∧
      G.terminals = (alphabets rules).terminals ∧
      G.rules = gatherAll G.nonterminals (rules.map (tagged G.nonterminals)) := by
  have fine : fault? (alphabets rules).nonterminals (alphabets rules).terminals
      (rules.map (tagged (alphabets rules).nonterminals)) rule.lhs = none := by
    -- the start symbol, the alphabets and the rows
    refine fault?_eq_none_iff_partsFit.mpr ⟨?_, ?_, rowFits_of_mem_tagged placed⟩
    · exact mem_nonterminals_alphabets_iff.mpr (.inl ⟨rule, hrule, rfl⟩)
    · exact fun a mem => (mem_terminals_alphabets_iff.mp mem).2
  have nonterminals :
      (alphabets rules).nonterminals.eraseDups = (alphabets rules).nonterminals := by
    rw [alphabets_eq]
    exact eraseDups_of_nodup (nodup_eraseDups _)
  have terminals : (alphabets rules).terminals.eraseDups = (alphabets rules).terminals := by
    rw [alphabets_eq]
    exact eraseDups_of_nodup (nodup_eraseDups _)
  refine ⟨_, by rw [ofRuleLines?_eq placed, ofRows?_eq, fine, Option.elim_none], rfl,
    nonterminals, terminals, ?_⟩
  simp only [nonterminals]

/-- What the rows of a left-hand side list is what its rules list. -/
theorem gatherAll_tagged (nonterminals declared : List Name) (rules : List RuleLine) :
    gatherAll nonterminals (rules.map (tagged declared)) = nonterminals.map fun A =>
      ⟨A, ((rules.filter (·.lhs = A)).flatMap fun rule =>
        rule.bodies.map (symbols declared)).eraseDups⟩ := by
  simp only [gatherAll, gather, List.filter_map, List.flatMap_map]
  rfl

/-- **The declaration by bare names is the same.** -/
theorem ofNames?_eq_ofRuleLines? (placed : ∀ rule ∈ rules, rule.hasMisplacedEmpty = false)
    (start : Name) :
    ofNames? ((alphabets rules).nonterminals.map Name.text)
      ((alphabets rules).terminals.map Name.text) (rules.map row) start.text
        = ofRuleLines? rules start := by
  rw [ofRuleLines?_eq placed]
  exact ofNames?_eq_ofRows? (fun rule hrule _ hbody =>
    isDeclaredIn_of_placed (placed rule hrule) hrule hbody) start

/-! ### Texts -/

/-- The grammar is the one that is read off rules, of which there is a first one. -/
structure IsReadOff (G : Grammar) (first : RuleLine) (others : List RuleLine) : Prop where
  start_eq : G.start = first.lhs
  /-- The non-terminals are the names with a rule and the names with a capital letter. -/
  mem_nonterminals_iff : ∀ a, a ∈ G.nonterminals ↔
    OccursIn (first :: others) a ∧ a ≠ emptyName ∧ IsNonterminalIn (first :: others) a
  /-- The terminals are all other names but the sign of the empty word. -/
  mem_terminals_iff : ∀ a, a ∈ G.terminals ↔
    OccursIn (first :: others) a ∧ a ≠ emptyName ∧ ¬IsNonterminalIn (first :: others) a
  /-- The left-hand sides come first, in the order of their first rules, and then the other
  non-terminals, in the order of their first use. -/
  nonterminals_eq : G.nonterminals = ((first :: others).map (·.lhs)).eraseDups ++
    ((usedNames (first :: others)).filter fun a =>
      isCapitalized a ∧ a ∉ (first :: others).map (·.lhs)).eraseDups
  /-- The terminals come in the order of their first use. -/
  terminals_eq : G.terminals = ((usedNames (first :: others)).filter fun a =>
    ¬isCapitalized a ∧ a ∉ (first :: others).map (·.lhs)).eraseDups
  /-- A non-terminal has the bodies of all its rules, in the order of the rules and each once. The
  sign of the empty word alone is the empty body. -/
  rules_eq : G.rules = G.nonterminals.map fun A =>
    ⟨A, (((first :: others).filter (·.lhs = A)).flatMap fun rule =>
      rule.bodies.map (symbols G.nonterminals)).eraseDups⟩
  /-- The alphabets and the rules, given by bare names and row by row, declare the same grammar. -/
  ofNames?_eq : (ofNames? (G.nonterminals.map Name.text) (G.terminals.map Name.text)
    ((first :: others).map row) first.lhs.text) = .ok G

/-- **A text of rules is a grammar.** If every line that is not passed over is a rule in which the
sign of the empty word stands where it may, and there is such a line, then the text is read without
failure, and what is read is the grammar that the rules declare. -/
theorem exists_ofText_isReadOff {text : String} {first : RuleLine} {others : List RuleLine}
    (reads : List.Forall₂ (fun line rule => parse line = .ok rule ∧ rule.hasMisplacedEmpty = false)
      ((lines text.toList).filter (!isSkipped ·)) (first :: others)) :
    ∃ G, (ofText text).outcome = .ok G ∧ G.IsReadOff first others := by
  have back : List.Forall₂ (fun rule line => rule.hasMisplacedEmpty = false ∧ parse line = .ok rule)
      (first :: others) ((lines text.toList).filter (!isSkipped ·)) :=
    .flip (reads.imp fun _ _ => And.symm)
  have placed := ((List.forall₂_and_left _ _).mp back).1
  have reading : readRules text.toList = .ok (first :: others) :=
    readFrom_eq_ok_iff.mpr (reads.imp fun _ _ => read_eq_ok_iff.mpr)
  obtain ⟨G, declared, start, nonterminals, terminals, rules⟩ :=
    exists_ofRuleLines?_eq_ok placed List.mem_cons_self
  refine ⟨G, outcome_ofText_eq_ok_iff.mpr ⟨first, others, reading, declared⟩, ?_⟩
  refine ⟨start, ?_, ?_, ?_, ?_, ?_, ?_⟩
  · intro a
    rw [nonterminals, (mem_alphabets_iff placed).1]
  · intro a
    rw [terminals, (mem_alphabets_iff placed).2]
  · rw [nonterminals, nonterminals_alphabets_eq]
  · rw [terminals, alphabets_eq]
  · rw [rules, gatherAll_tagged]
  · rw [nonterminals, terminals, ofNames?_eq_ofRuleLines? placed, declared]

/-- Two rules of one left-hand side, a left-hand side without a capital letter that is used before
its rule, and a non-terminal without a rule. -/
def assorted : String := "S -> a t | ε\n# more of them\nt -> b U\nS → c"

/-- A name of one letter. -/
def letter (c : Char) : Name := .ofCons c []

theorem assorted_isReadOff :
    ∃ G, (ofText assorted).outcome = .ok G ∧
      G.nonterminals = [letter 'S', letter 't', letter 'U'] ∧
      G.terminals = [letter 'a', letter 'b', letter 'c'] ∧
      G.rules = [
        ⟨letter 'S', [[.terminal (letter 'a'), .nonterminal (letter 't')], [],
          [.terminal (letter 'c')]]⟩,
        ⟨letter 't', [[.terminal (letter 'b'), .nonterminal (letter 'U')]]⟩,
        ⟨letter 'U', []⟩] := by
  have reads : List.Forall₂
      (fun line rule => parse line = .ok rule ∧ rule.hasMisplacedEmpty = false)
      ((lines assorted.toList).filter (!isSkipped ·))
      [⟨letter 'S', [[letter 'a', letter 't'], [emptyName]]⟩,
        ⟨letter 't', [[letter 'b', letter 'U']]⟩, ⟨letter 'S', [[letter 'c']]⟩] := by
    have kept : (lines assorted.toList).filter (!isSkipped ·)
        = ["S -> a t | ε".toList, "t -> b U".toList, "S → c".toList] := by decide +kernel
    rw [kept]
    exact .cons (by decide +kernel) (.cons (by decide +kernel) (.cons (by decide +kernel) .nil))
  obtain ⟨G, read, off⟩ := exists_ofText_isReadOff reads
  refine ⟨G, read, ?_, ?_, ?_⟩
  · rw [off.nonterminals_eq]
    decide +kernel
  · rw [off.terminals_eq]
    decide +kernel
  · -- the two rules of `S` are one, and `U` has none
    rw [off.rules_eq, off.nonterminals_eq]
    decide +kernel

end Grammar

end ContextFree

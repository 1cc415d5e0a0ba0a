import ContextFree.Proofs.WellFormed

/-!
# Which words are written alike

A word is written in one of two ways. If it is **tight**, made of one-character names only, its
characters stand back to back, and the word is read off them one by one (`IsTight.eq_letters`). In
any other word the names are set apart by blanks. If no name has a blank in it, such a word is found
again by cutting its text at the blanks (`splitOn_written`).

So words that are written in the same way can be told apart. Of two words written in different ways
that read alike, the one that is set apart has no blank in its text and so is a single name
(`exists_name_of_blank_notMem`). What is left are the two kinds of collisions that `Collides` lists:
a tight word spells out a long name, or the sign of the empty word (`written_eq_iff`).

The text of a body has the names of its symbols and not their kinds. In a well-formed grammar a name
stands for one kind of symbol only (`Grammar.WellFormed.eq_of_names_eq`), so that the text of a body
tells as much of the body as the text of a word tells of the word (`text_eq_iff_collides`).
-/

namespace ContextFree

variable {u v w : List Name} {a : Name} {cs : List Char}

/-- The characters of a word as it is written. -/
def written (w : List Name) : List Char := (spell (w.map (·.text))).toList

/-- All names of the word have one character. -/
def IsTight (w : List Name) : Prop := ∀ a ∈ w, a.text.length = 1

/-- No name of the word has a blank in it. -/
def Unbroken (w : List Name) : Prop := ∀ a ∈ w, ' ' ∉ a.text.toList

instance : DecidablePred Unbroken := fun w =>
  inferInstanceAs (Decidable (∀ a ∈ w, ' ' ∉ a.text.toList))

/-- The word that has a name for each of the characters. -/
def letters (cs : List Char) : List Name := cs.map (.ofCons · [])

/-- Two different words that are written alike. -/
inductive Collides : List Name → List Name → Prop where
  /-- A long name, and the word of its characters. -/
  | spelledOut (a : Name) : 2 ≤ a.text.length → Collides [a] (letters a.text.toList)
  /-- The empty word, and the symbol that is called like its sign. -/
  | emptySign : Collides [] [.ofCons 'ε' []]

/-! ### Tight words -/

theorem toList_text_letter (c : Char) : (Name.ofCons c []).text.toList = [c] :=
  String.toList_ofList

/-- A name of one character is this character. -/
theorem exists_eq_letter (one : a.text.length = 1) : ∃ c, a = .ofCons c [] := by
  rw [← String.length_toList, List.length_eq_one_iff] at one
  obtain ⟨c, chars⟩ := one
  have spelled : Name.ofChars? [c] = some a := Name.ofChars?_eq_some_iff.mpr chars
  exact ⟨c, (Option.some.inj spelled).symm⟩

theorem isTight_letters (cs : List Char) : IsTight (letters cs) := by
  intro a mem
  obtain ⟨c, _, rfl⟩ := List.mem_map.mp mem
  rw [← String.length_toList, toList_text_letter, List.length_singleton]

theorem written_of_isTight (tight : IsTight w) (nonempty : w ≠ []) :
    written w = w.flatMap (·.text.toList) := by
  have all : (w.map (·.text)).all (·.length = 1) := by
    simpa [List.all_eq_true, IsTight] using tight
  rw [written, spell, if_neg (by simpa using nonempty), if_pos all, String.toList_join,
    List.flatMap_map]

theorem flatMap_letters (cs : List Char) : (letters cs).flatMap (·.text.toList) = cs := by
  rw [letters, List.flatMap_map]
  induction cs with
  | nil => rfl
  | cons c cs ih =>
    rw [List.flatMap_cons, ih, toList_text_letter, List.singleton_append]

theorem written_letters (nonempty : cs ≠ []) : written (letters cs) = cs := by
  rw [written_of_isTight (isTight_letters cs) (by simpa [letters] using nonempty), flatMap_letters]

/-- **A tight word is read off its text**, character by character. -/
theorem IsTight.eq_letters (tight : IsTight w) (nonempty : w ≠ []) : w = letters (written w) := by
  rw [written_of_isTight tight nonempty]
  clear nonempty
  induction w with
  | nil => rfl
  | cons a w ih =>
    -- the first name gives one character, and this character gives back the name
    obtain ⟨one, others⟩ := List.forall_mem_cons.mp tight
    obtain ⟨c, rfl⟩ := exists_eq_letter one
    rw [List.flatMap_cons, toList_text_letter, List.singleton_append, letters, List.map_cons]
    exact congrArg (Name.ofCons c [] :: ·) (ih others)

theorem IsTight.blank_notMem (tight : IsTight w) (unbroken : Unbroken w) : ' ' ∉ written w := by
  by_cases empty : w = []
  · subst empty
    decide
  · rw [written_of_isTight tight empty, List.mem_flatMap]
    rintro ⟨a, mem, blank⟩
    exact unbroken a mem blank

/-! ### Words set apart -/

theorem ne_nil_of_not_isTight (apart : ¬ IsTight w) : w ≠ [] := by
  rintro rfl
  exact apart nofun

theorem written_of_not_isTight (apart : ¬ IsTight w) :
    written w = [' '].intercalate (w.map (·.text.toList)) := by
  have nonempty : w ≠ [] := ne_nil_of_not_isTight apart
  have some : ¬ (w.map (·.text)).all (·.length = 1) := by
    simpa [List.all_eq_true, IsTight] using apart
  rw [written, spell, if_neg (by simpa using nonempty), if_neg some, String.toList_intercalate,
    List.map_map]
  rfl

/-- **A word set apart is found again** by cutting its text at the blanks. -/
theorem splitOn_written (apart : ¬ IsTight w) (unbroken : Unbroken w) :
    (written w).splitOn ' ' = w.map (·.text.toList) := by
  have nonempty : w.map (·.text.toList) ≠ [] := by
    simpa using ne_nil_of_not_isTight apart
  rw [written_of_not_isTight apart]
  refine List.splitOn_intercalate ' ' ?_ nonempty
  intro chars mem
  obtain ⟨a, ha, rfl⟩ := List.mem_map.mp mem
  exact unbroken a ha

/-- A word that is set apart, but has no blank in its text, is a single long name. -/
theorem exists_name_of_blank_notMem (apart : ¬ IsTight w) (unbroken : Unbroken w)
    (none : ' ' ∉ written w) : ∃ a, w = [a] ∧ 2 ≤ a.text.length ∧ a.text.toList = written w := by
  -- where there is nothing to cut, the text is a single piece
  have whole : (written w).splitOn ' ' = [written w] := by
    refine List.splitOnP_eq_singleton fun c mem => ?_
    have : c ≠ ' ' := fun blank => none (blank ▸ mem)
    simpa using this
  rw [splitOn_written apart unbroken] at whole
  obtain ⟨a, rfl, chars⟩ := List.map_eq_singleton_iff.mp whole
  refine ⟨a, rfl, ?_, chars⟩
  have several : a.text.length ≠ 1 := by simpa [IsTight] using apart
  have some : a.text.length ≠ 0 := by simpa using a.text_ne_empty
  omega

theorem written_singleton (long : 2 ≤ a.text.length) : written [a] = a.text.toList := by
  have apart : ¬ IsTight [a] := fun tight => by
    have := tight a List.mem_cons_self
    omega
  rw [written_of_not_isTight apart, List.map_singleton, List.intercalate_singleton]

/-! ### Collisions -/

theorem Collides.written_eq (h : Collides u v) : written u = written v := by
  cases h with
  | spelledOut a long => rw [written_singleton long, written_letters a.toList_text_ne_nil]
  | emptySign => decide

/-- A tight word collides with every other way to write it. -/
theorem collides_of_isTight (tight : IsTight u) (apart : ¬ IsTight v) (unbroken : Unbroken u)
    (unbroken' : Unbroken v) (same : written u = written v) : Collides v u := by
  have none : ' ' ∉ written v := same ▸ tight.blank_notMem unbroken
  obtain ⟨a, rfl, long, chars⟩ := exists_name_of_blank_notMem apart unbroken' none
  by_cases empty : u = []
  · -- the sign of the empty word is a single character
    subst empty
    have one : a.text.toList.length = 1 := by
      rw [chars, ← same]
      decide
    rw [String.length_toList] at one
    omega
  · rw [tight.eq_letters empty, same, ← chars]
    exact .spelledOut a long

/-- Of two tight words that are written alike, only one can be empty. -/
theorem eq_or_collides_of_isTight (tight : IsTight u) (tight' : IsTight v)
    (same : written u = written v) : u = v ∨ Collides u v ∨ Collides v u := by
  -- the empty word is written like the letter that is its sign
  have sign : letters (written []) = [.ofCons 'ε' []] := by decide
  by_cases hu : u = []
  · by_cases hv : v = []
    · exact .inl (hu.trans hv.symm)
    · subst hu
      rw [tight'.eq_letters hv, ← same, sign]
      exact .inr (.inl .emptySign)
  · by_cases hv : v = []
    · subst hv
      rw [tight.eq_letters hu, same, sign]
      exact .inr (.inr .emptySign)
    · rw [tight.eq_letters hu, tight'.eq_letters hv, same]
      exact .inl rfl

/-- **Words are told apart by their texts**, but for collisions. -/
theorem written_eq_iff (unbroken : Unbroken u) (unbroken' : Unbroken v) :
    written u = written v ↔ u = v ∨ Collides u v ∨ Collides v u := by
  refine ⟨fun same => ?_, ?_⟩
  · -- each of the words is written in one of the two ways
    by_cases tight : IsTight u
    · by_cases tight' : IsTight v
      · exact eq_or_collides_of_isTight tight tight' same
      · exact .inr (.inr (collides_of_isTight tight tight' unbroken unbroken' same))
    · by_cases tight' : IsTight v
      · exact .inr (.inl (collides_of_isTight tight' tight unbroken' unbroken same.symm))
      · -- cutting the text gives the names of both words
        have names : u.map (·.text.toList) = v.map (·.text.toList) := by
          rw [← splitOn_written tight unbroken, same, splitOn_written tight' unbroken']
        left
        refine (List.map_inj_right fun _ _ chars => ?_).mp names
        exact Name.ext (String.toList_injective chars)
  · rintro (rfl | collides | collides)
    · rfl
    · exact collides.written_eq
    · exact collides.written_eq.symm

theorem spell_eq_iff_written_eq :
    spell (u.map (·.text)) = spell (v.map (·.text)) ↔ written u = written v :=
  String.toList_inj.symm

/-! ### Bodies -/

/-- The names of the symbols of a body. -/
def Body.names (body : Body) : List Name := body.map (·.name)

namespace Grammar

variable {G : Grammar} {body other : Body}

/-- No name is declared twice, so the name of a declared symbol tells which symbol it is. -/
theorem WellFormed.eq_of_name_eq (wf : G.WellFormed) {s t : Symbol} (hs : G.Declares s)
    (ht : G.Declares t) (same : s.name = t.name) : s = t := by
  cases s with
  | terminal a =>
    cases t with
    | terminal b => exact congrArg Symbol.terminal same
    | nonterminal B =>
      cases same
      exact absurd ht (wf.disjoint _ hs)
  | nonterminal A =>
    cases t with
    | terminal b =>
      cases same
      exact absurd hs (wf.disjoint _ ht)
    | nonterminal B => exact congrArg Symbol.nonterminal same

/-- The names in a body tell which body it is. -/
theorem WellFormed.eq_of_names_eq (wf : G.WellFormed) (declared : ∀ s ∈ body, G.Declares s)
    (declared' : ∀ s ∈ other, G.Declares s) (same : body.names = other.names) : body = other := by
  induction body generalizing other with
  | nil => exact (List.map_eq_nil_iff.mp same.symm).symm
  | cons s body ih =>
    obtain ⟨t, rest, rfl, name, names⟩ := List.map_eq_cons_iff.mp same.symm
    obtain ⟨hs, declared⟩ := List.forall_mem_cons.mp declared
    obtain ⟨ht, declared'⟩ := List.forall_mem_cons.mp declared'
    rw [wf.eq_of_name_eq hs ht name.symm, ih declared declared' names.symm]

end Grammar

/-- **A text determines what is written**, if no name has a blank in it, and but for two kinds of
collisions: a long name reads like the word of its characters, and a symbol called `ε` reads like
the empty word. This is so for words, and for the bodies that can be formed from the symbols of a
well-formed grammar. -/
theorem text_eq_iff_collides :
    (∀ u v : List Name, Unbroken u → Unbroken v →
      (spell (u.map (·.text)) = spell (v.map (·.text)) ↔ u = v ∨ Collides u v ∨ Collides v u)) ∧
    ∀ G : Grammar, G.WellFormed → ∀ body other : Body,
      (∀ s ∈ body, G.Declares s) → (∀ s ∈ other, G.Declares s) →
      Unbroken body.names → Unbroken other.names →
        (body.text = other.text ↔
          body = other ∨ Collides body.names other.names ∨ Collides other.names body.names) := by
  refine ⟨fun u v unbroken unbroken' => ?_,
    fun G wf body other declared declared' unbroken unbroken' => ?_⟩
  · rw [spell_eq_iff_written_eq, written_eq_iff unbroken unbroken']
  · have texts : body.text = other.text ↔ written body.names = written other.names := by
      rw [← spell_eq_iff_written_eq, Body.names, Body.names, List.map_map, List.map_map]
      rfl
    rw [texts, written_eq_iff unbroken unbroken']
    -- bodies of declared symbols are the same if their names are
    refine or_congr_left ⟨wf.eq_of_names_eq declared declared', ?_⟩
    rintro rfl
    rfl

/-- The grammar `S → a b | ab | ε`, with the two names `a`, `b` in the first body, the one name `ab`
in the second, and the symbol `ε` in the third. -/
def lookalikes : Grammar where
  start := .ofCons 'S' []
  nonterminals := [.ofCons 'S' []]
  terminals := [.ofCons 'a' [], .ofCons 'b' [], .ofCons 'a' ['b'], .ofCons 'ε' []]
  rules := [⟨.ofCons 'S' [],
    [[.terminal (.ofCons 'a' []), .terminal (.ofCons 'b' [])], [.terminal (.ofCons 'a' ['b'])],
      [.terminal (.ofCons 'ε' [])]]⟩]

/-- The first two bodies collide, and the third one collides with the empty body. But the words
`a ab` and `aab` do not. -/
theorem lookalikes_text_eq :
    lookalikes.WellFormed ∧
      (∀ A ∈ lookalikes.nonterminals ++ lookalikes.terminals, Unbroken [A]) ∧
      Body.text [.terminal (.ofCons 'a' []), .terminal (.ofCons 'b' [])]
        = Body.text [.terminal (.ofCons 'a' ['b'])] ∧
      Body.text [] = Body.text [.terminal (.ofCons 'ε' [])] ∧
      spell ([Name.ofCons 'a' [], .ofCons 'a' ['b']].map (·.text))
        ≠ spell ([Name.ofCons 'a' [], .ofCons 'a' [], .ofCons 'b' []].map (·.text)) := by
  have wf : lookalikes.WellFormed := Grammar.wellFormed_iff_ofRows?_eq_ok.mpr rfl
  have words := text_eq_iff_collides.1
  have bodies := text_eq_iff_collides.2 lookalikes wf
  refine ⟨wf, by decide +kernel, ?_, ?_, fun same => ?_⟩
  · refine (bodies _ _ ?_ ?_ ?_ ?_).mpr (.inr (.inr ?_))
    · decide +kernel
    · decide +kernel
    · decide +kernel
    · decide +kernel
    · exact .spelledOut (.ofCons 'a' ['b']) (by decide +kernel)
  · refine (bodies _ _ ?_ ?_ ?_ ?_).mpr (.inr (.inl .emptySign))
    · decide +kernel
    · decide +kernel
    · decide +kernel
    · decide +kernel
  · -- two names on the one side and three on the other are no collision
    rcases (words _ _ (by decide +kernel) (by decide +kernel)).mp same with eq | collides | collides
    · cases eq
    · cases collides
    · cases collides

end ContextFree

import ContextFree.Proofs.FreshNames

/-!
# What fresh names are for

The binary form hands out its fresh names by counting: the terminals to be isolated come first, in
the order of first use, and then the pairs of symbols that peeling replaces, body by body. What a
name is for does not depend on that count. It is a **place** in the grammar (`Place`): a terminal,
or one of the pairs of one of the bodies of a non-terminal.

Once each place has a name, the binary form can be written down without any counting
(`Grammar.binaryFormBy`). When the first `i` pairs of a body are replaced, the body begins with the
name of the last of them and the next symbol, so it is known which pair comes next (`Body.pairAt`).
The binary form with numbers from `k` on is the one in which the places are named in their order
(`Grammar.WellFormed.binaryForm_eq`). Everything that depends on the order of the grammar is thereby
put into the names.
-/

namespace ContextFree

/-- What a fresh non-terminal is for: a terminal to be isolated, or the pair that is replaced as the
`i`-th when a body of `A` is peeled, counted from 0. -/
inductive Place where
  | terminal (a : Name)
  | pair (A : Name) (body : Body) (i : Nat)
deriving DecidableEq

/-! ### Bodies, given the names -/

/-- A symbol of a longer body, with a name in the place of a terminal. -/
def Symbol.isolateBy (names : Place → Name) : Symbol → Symbol
  | .terminal a => .nonterminal (names (.terminal a))
  | .nonterminal A => .nonterminal A

namespace Body

variable {names : Place → Name} {first second : Symbol} {others : List Symbol} {body : Body}
  {A : Name} {k : Nat}

def isolateBy (names : Place → Name) (body : Body) : Body :=
  if body.length < 2 then body else body.map (Symbol.isolateBy names)

/-- The first two symbols of a body after `i` pairs have been replaced, each by its name. -/
def frontPair (name : Nat → Name) (body : Body) : Nat → Body
  | 0 => body.take 2
  | i + 1 => .nonterminal (name i) :: (body.drop (i + 2)).take 1

/-- The pair in front of a body of `A` that has been isolated, after `i` pairs have been
replaced. -/
def pairAt (names : Place → Name) (A : Name) (body : Body) (i : Nat) : Body :=
  frontPair (fun j => names (.pair A body j)) (isolateBy names body) i

/-- What isolating and peeling leave of a body of `A`: all symbols but two have been replaced. -/
def left (names : Place → Name) (A : Name) (body : Body) : Body :=
  pairAt names A body (body.length - 2)

/-- The places in a body of `A` that need a name, one for each symbol beyond the second. -/
def places (A : Name) (body : Body) : List Place :=
  (List.range (body.length - 2)).map (.pair A body)

theorem frontPair_congr {name other : Nat → Name} {i : Nat} (h : ∀ j < i, name j = other j) :
    frontPair name body i = frontPair other body i := by
  cases i with
  | zero => rfl
  | succ i => rw [frontPair, frontPair, h i (Nat.lt_succ_self i)]

theorem length_isolateBy : (isolateBy names body).length = body.length := by
  unfold isolateBy
  split
  · rfl
  · exact List.length_map _

/-- **Peeling, written out**, for a body given by its first two symbols and the others. -/
theorem peelFrom_eq (k : Nat) (first second : Symbol) (others : List Symbol) :
    peelFrom k first second others =
      (frontPair (fun i => .numbered (k + i)) (first :: second :: others) others.length,
        (List.range others.length).map
          (frontPair (fun i => .numbered (k + i)) (first :: second :: others))) := by
  induction others generalizing k first second with
  | nil => rfl
  | cons third others ih =>
    -- one pair later the body begins with a fresh name, and the count of pairs is one behind
    have shift : ∀ i, frontPair (fun i => .numbered (k + 1 + i))
        (.nonterminal (.numbered k) :: third :: others) i
          = frontPair (fun i => .numbered (k + i)) (first :: second :: third :: others)
            (i + 1) := by
      intro i
      cases i with
      | zero => rfl
      | succ i =>
        have name : k + 1 + i = k + (i + 1) := by omega
        rw [frontPair, frontPair, name]
        rfl
    rw [peelFrom, ih (k + 1), shift, List.length_cons, List.range_succ_eq_map, List.map_cons,
      List.map_map]
    -- the first pair is the one that is replaced now, and the others are those of the shorter body
    refine congrArg (Prod.mk _) (congrArg (List.cons _) (List.map_congr_left fun i _ => ?_))
    exact shift i

/-- **Peeling, written out.** A body of at most two symbols is left as it is. -/
theorem peel_eq (k : Nat) (body : Body) :
    peel k body =
      (frontPair (fun i => .numbered (k + i)) body (body.length - 2),
        (List.range (body.length - 2)).map (frontPair (fun i => .numbered (k + i)) body)) := by
  match body with
  | [] => rfl
  | [_] => rfl
  | first :: second :: others => exact peelFrom_eq k first second others

/-- Isolating with numbers is isolating with names, if terminals are named by their numbers. -/
theorem isolate_eq {crowded : List Name} (named : ∀ a ∈ body.crowdedTerminals,
      names (.terminal a) = .numbered (k + crowded.idxOf a)) :
    isolate k crowded body = isolateBy names body := by
  unfold isolate isolateBy
  split
  · rfl
  · next long =>
    refine List.map_congr_left fun s hs => ?_
    cases s with
    | nonterminal A => rfl
    | terminal a =>
      have mem := mem_crowdedTerminals_iff.mpr ⟨Nat.le_of_not_lt long, hs⟩
      exact congrArg Symbol.nonterminal (named a mem).symm

end Body

/-- The body of the non-terminal that is named for a place. -/
def Place.body (names : Place → Name) : Place → Body
  | .terminal a => [.terminal a]
  | .pair A body i => body.pairAt names A i

/-! ### Names in order -/

/-- The places are named by the numbered names from `k` on, in their order. -/
def NamesFrom (names : Place → Name) (k : Nat) (places : List Place) : Prop :=
  places.map names = (List.range' k places.length).map Name.numbered

section Names

variable {names : Place → Name} {k : Nat}

theorem namesFrom_append_iff {xs ys : List Place} :
    NamesFrom names k (xs ++ ys) ↔
      NamesFrom names k xs ∧ NamesFrom names (k + xs.length) ys := by
  unfold NamesFrom
  rw [List.map_append, List.length_append, ← List.range'_append_1, List.map_append]
  refine ⟨fun h => List.append_inj h ?_, fun ⟨hx, hy⟩ => by rw [hx, hy]⟩
  rw [List.length_map, List.length_map, List.length_range']

/-- The pairs of a body are named in their order. -/
theorem NamesFrom.name_pair {A : Name} {body : Body} (h : NamesFrom names k (body.places A))
    {i : Nat} (hi : i < body.length - 2) : names (.pair A body i) = .numbered (k + i) := by
  unfold NamesFrom at h
  rw [Body.places, List.length_map, List.length_range, List.map_map, List.range'_eq_map_range,
    List.map_map] at h
  exact List.map_inj_left.mp h i (List.mem_range.mpr hi)

/-- The terminals are named in their order. -/
theorem NamesFrom.name_terminal {crowded : List Name}
    (h : NamesFrom names k (crowded.map .terminal)) {a : Name} (mem : a ∈ crowded) :
    names (.terminal a) = .numbered (k + crowded.idxOf a) := by
  have place : crowded.idxOf a < crowded.length := List.idxOf_lt_length_of_mem mem
  have here := congrArg (·[crowded.idxOf a]?) h
  simpa [List.getElem?_idxOf mem, place] using here

/-- One rule for each place, by numbers or by names. -/
theorem NamesFrom.zipIdx_map {places : List Place} (h : NamesFrom names k places)
    (body : Place → Body) :
    ((places.map body).zipIdx k).map (fun p => (⟨.numbered p.2, [p.1]⟩ : Rule Body))
      = places.map fun place => ⟨names place, [body place]⟩ := by
  induction places generalizing k with
  | nil => rfl
  | cons place places ih =>
    -- the first place has the number `k`, the others those after it
    obtain ⟨here, rest⟩ := List.cons.inj h
    rw [List.map_cons, List.zipIdx_cons, List.map_cons, List.map_cons, ih rest]
    refine congrArg₂ List.cons ?_ rfl
    exact congrArg (Rule.mk · [body place]) here.symm

end Names

/-! ### Peeling, given the names -/

section Peel

variable {names : Place → Name} {k l : Nat} {crowded : List Name} {A : Name}

namespace Body

/-- **One body**: its pairs are named from `l` on. -/
theorem peel_isolate_eq {body : Body}
    (terminals : ∀ a ∈ body.crowdedTerminals,
      names (.terminal a) = .numbered (k + crowded.idxOf a))
    (pairs : NamesFrom names l (body.places A)) :
    peel l (isolate k crowded body) =
      (body.left names A, (body.places A).map (Place.body names)) := by
  have upTo : ∀ i ≤ body.length - 2,
      frontPair (fun j => .numbered (l + j)) (isolateBy names body) i = body.pairAt names A i := by
    intro i hi
    refine frontPair_congr fun j hj => ?_
    exact (pairs.name_pair (by omega)).symm
  rw [isolate_eq terminals, peel_eq, length_isolateBy, places, List.map_map]
  refine congrArg₂ Prod.mk (upTo _ (Nat.le_refl _)) (List.map_congr_left fun i hi => ?_)
  exact upTo i (Nat.le_of_lt (List.mem_range.mp hi))

theorem peelAll_isolate_eq {bodies : List Body}
    (terminals : ∀ body ∈ bodies, ∀ a ∈ body.crowdedTerminals,
      names (.terminal a) = .numbered (k + crowded.idxOf a))
    (pairs : NamesFrom names l (bodies.flatMap (places A))) :
    peelAll l (bodies.map (isolate k crowded)) =
      (bodies.map (left names A), (bodies.flatMap (places A)).map (Place.body names)) := by
  induction bodies generalizing l with
  | nil => rfl
  | cons body bodies ih =>
    rw [List.flatMap_cons, namesFrom_append_iff] at pairs
    have here := peel_isolate_eq (terminals body List.mem_cons_self) pairs.1
    -- the names of the next body come after those of this one
    have taken : (peel l (isolate k crowded body)).2.length = (body.places A).length := by
      rw [here, List.length_map]
    have rest := ih (fun body mem => terminals body (List.mem_cons_of_mem _ mem)) pairs.2
    rw [List.map_cons, peelAll_cons, taken, rest, here, List.map_cons, List.flatMap_cons,
      List.map_append]

end Body

namespace Grammar

/-- The places in the bodies of a rule that need a name. -/
def rulePlaces (rule : Rule Body) : List Place := rule.bodies.flatMap (Body.places rule.lhs)

theorem peelRules_cons (l : Nat) (rule : Rule Body) (rules : List (Rule Body)) :
    peelRules l (rule :: rules) =
      (⟨rule.lhs, (Body.peelAll l rule.bodies).1⟩ ::
          (peelRules (l + (Body.peelAll l rule.bodies).2.length) rules).1,
        (Body.peelAll l rule.bodies).2 ++
          (peelRules (l + (Body.peelAll l rule.bodies).2.length) rules).2) := rfl

theorem peelRules_isolate_eq {rules : List (Rule Body)}
    (terminals : ∀ rule ∈ rules, ∀ body ∈ rule.bodies, ∀ a ∈ body.crowdedTerminals,
      names (.terminal a) = .numbered (k + crowded.idxOf a))
    (pairs : NamesFrom names l (rules.flatMap rulePlaces)) :
    peelRules l (mapBodies (Body.isolate k crowded) rules) =
      (rules.map fun rule => ⟨rule.lhs, rule.bodies.map (Body.left names rule.lhs)⟩,
        (rules.flatMap rulePlaces).map (Place.body names)) := by
  induction rules generalizing l with
  | nil => rfl
  | cons rule rules ih =>
    rw [List.flatMap_cons, namesFrom_append_iff] at pairs
    have here := Body.peelAll_isolate_eq (terminals rule List.mem_cons_self) pairs.1
    have taken : (Body.peelAll l (rule.bodies.map (Body.isolate k crowded))).2.length
        = (rulePlaces rule).length := by
      rw [here, List.length_map]
      rfl
    have rest := ih (fun rule mem => terminals rule (List.mem_cons_of_mem _ mem)) pairs.2
    rw [mapBodies, List.map_cons, peelRules_cons, taken, ← mapBodies, rest, here, List.map_cons,
      List.flatMap_cons, List.map_append]
    rfl

end Grammar

end Peel

namespace Grammar

variable {G : Grammar} {names : Place → Name} {k : Nat} {A : Name} {body : Body}

/-! ### The places of a grammar -/

/-- All places that need a name, in the order in which binarization numbers them. -/
def places (G : Grammar) : List Place :=
  G.crowdedTerminals.map .terminal ++ G.rules.flatMap rulePlaces

theorem WellFormed.isCrowded_iff (wf : G.WellFormed) {a : Name} :
    G.IsCrowded a ↔ ∃ A, ∃ body ∈ G.bodies A, 2 ≤ body.length ∧ .terminal a ∈ body := by
  refine ⟨?_, ?_⟩
  · rintro ⟨rule, hrule, body, hbody, crowd⟩
    exact ⟨rule.lhs, body, wf.mem_bodies hrule hbody, crowd⟩
  · rintro ⟨A, body, mem, crowd⟩
    obtain ⟨rule, hrule, _, hbody⟩ := exists_rule_of_mem_bodies mem
    exact ⟨rule, hrule, body, hbody, crowd⟩

theorem mem_places_terminal_iff {a : Name} : .terminal a ∈ G.places ↔ a ∈ G.crowdedTerminals := by
  simp [places, rulePlaces, Body.places]

theorem WellFormed.mem_places_pair_iff (wf : G.WellFormed) {i : Nat} :
    .pair A body i ∈ G.places ↔ body ∈ G.bodies A ∧ i < body.length - 2 := by
  rw [mem_bodies_iff wf.leftSides_nodup]
  simp only [places, rulePlaces, Body.places, List.mem_append, List.mem_map, List.mem_flatMap,
    List.mem_range, reduceCtorEq, and_false, exists_false, false_or, Place.pair.injEq]
  refine ⟨?_, ?_⟩
  · rintro ⟨rule, hrule, _, hbody, _, hi, rfl, rfl, rfl⟩
    exact ⟨⟨rule, hrule, rfl, hbody⟩, hi⟩
  · rintro ⟨⟨rule, hrule, rfl, hbody⟩, hi⟩
    exact ⟨rule, hrule, body, hbody, i, hi, rfl, rfl, rfl⟩

theorem nodup_bodyPlaces (A : Name) (body : Body) : (body.places A).Nodup :=
  List.nodup_range.map fun _ _ same => (Place.pair.inj same).2.2

/-- **No place is listed twice**, since no left-hand side has two rules and no rule lists a body
twice. -/
theorem WellFormed.nodup_places (wf : G.WellFormed) : G.places.Nodup := by
  have terminals : (G.crowdedTerminals.map Place.terminal).Nodup :=
    (nodup_eraseDups _).map fun _ _ same => Place.terminal.inj same
  have ofRule : ∀ rule ∈ G.rules, (rulePlaces rule).Nodup := by
    intro rule mem
    refine List.nodup_flatMap.mpr ⟨fun body _ => nodup_bodyPlaces rule.lhs body, ?_⟩
    -- places of different bodies are different
    refine (wf.bodies_nodup rule mem).imp fun {body other} ne place here there => ?_
    obtain ⟨_, _, rfl⟩ := List.mem_map.mp here
    obtain ⟨_, _, same⟩ := List.mem_map.mp there
    exact ne (Place.pair.inj same).2.1.symm
  have pairs : (G.rules.flatMap rulePlaces).Nodup := by
    refine List.nodup_flatMap.mpr ⟨ofRule, ?_⟩
    -- places of different left-hand sides are different
    refine (List.pairwise_map.mp wf.leftSides_nodup).imp fun {rule other} ne place here there => ?_
    obtain ⟨_, _, here⟩ := List.mem_flatMap.mp here
    obtain ⟨_, _, rfl⟩ := List.mem_map.mp here
    obtain ⟨_, _, there⟩ := List.mem_flatMap.mp there
    obtain ⟨_, _, same⟩ := List.mem_map.mp there
    exact ne (Place.pair.inj same).1.symm
  refine List.nodup_append.mpr ⟨terminals, pairs, ?_⟩
  rintro place here other there rfl
  obtain ⟨a, _, rfl⟩ := List.mem_map.mp here
  simp [rulePlaces, Body.places] at there

/-! ### The binary form, given the names -/

/-- The binary form of a grammar when each place has the given name. -/
def binaryFormBy (G : Grammar) (names : Place → Name) : Grammar :=
  { G with
    nonterminals := G.nonterminals ++ G.places.map names
    rules := (G.rules.map fun rule => ⟨rule.lhs, rule.bodies.map (Body.left names rule.lhs)⟩) ++
      G.places.map fun place => ⟨names place, [place.body names]⟩ }

theorem leftSides_binaryFormBy :
    (G.binaryFormBy names).leftSides = G.leftSides ++ G.places.map names := by
  rw [leftSides, binaryFormBy, List.map_append, List.map_map, List.map_map]
  rfl

/-- The bodies of the binary form are what is left of old bodies, and the bodies of named places. -/
theorem mem_bodies_binaryFormBy_iff (distinct : G.leftSides.Nodup)
    (distinctForm : (G.binaryFormBy names).leftSides.Nodup) :
    body ∈ (G.binaryFormBy names).bodies A ↔
      (∃ old ∈ G.bodies A, old.left names A = body) ∨
        ∃ place ∈ G.places, names place = A ∧ place.body names = body := by
  rw [mem_bodies_iff distinctForm]
  simp only [mem_bodies_iff distinct]
  refine ⟨?_, ?_⟩
  · rintro ⟨rule, hrule, rfl, hbody⟩
    rcases List.mem_append.mp hrule with hrule | hrule
    · obtain ⟨rule, hold, rfl⟩ := List.mem_map.mp hrule
      obtain ⟨old, mem, rfl⟩ := List.mem_map.mp hbody
      exact .inl ⟨old, ⟨rule, hold, rfl, mem⟩, rfl⟩
    · obtain ⟨place, mem, rfl⟩ := List.mem_map.mp hrule
      exact .inr ⟨place, mem, rfl, (List.mem_singleton.mp hbody).symm⟩
  · rintro (⟨old, ⟨rule, hold, rfl, mem⟩, rfl⟩ | ⟨place, mem, rfl, rfl⟩)
    · exact ⟨_, List.mem_append_left _ (List.mem_map_of_mem hold), rfl, List.mem_map_of_mem mem⟩
    · exact ⟨_, List.mem_append_right _ (List.mem_map_of_mem mem), rfl, List.mem_singleton_self _⟩

theorem peeled_eq (named : NamesFrom names k G.places) :
    G.peeled k =
      (G.rules.map fun rule => ⟨rule.lhs, rule.bodies.map (Body.left names rule.lhs)⟩,
        (G.rules.flatMap rulePlaces).map (Place.body names)) := by
  obtain ⟨terminals, pairs⟩ := namesFrom_append_iff.mp named
  rw [List.length_map] at pairs
  refine peelRules_isolate_eq (fun rule hrule body hbody a ha => ?_) pairs
  -- a terminal that is crowded in a body is one of those that are isolated
  have crowded := Body.mem_crowdedTerminals_iff.mp ha
  exact terminals.name_terminal (mem_crowdedTerminals_iff.mpr ⟨rule, hrule, body, hbody, crowded⟩)

theorem freshBodies_eq (named : NamesFrom names k G.places) :
    G.freshBodies k = G.places.map (Place.body names) := by
  rw [freshBodies, peeled_eq named, places, List.map_append, List.map_map]
  rfl

/-- **The binary form is given by the names of the places.** -/
theorem binaryForm_eq_of_namesFrom (named : NamesFrom names k G.places) :
    G.binaryForm k = G.binaryFormBy names := by
  have rules : G.freshRules k = G.places.map fun place => ⟨names place, [place.body names]⟩ := by
    rw [freshRules, freshBodies_eq named]
    exact named.zipIdx_map _
  rw [binaryForm, binaryFormBy, rules, peeled_eq named, List.map_map]
  rfl

/-- The names that binarization gives to the places, if numbers begin with `k`. -/
def naming (G : Grammar) (k : Nat) (place : Place) : Name := .numbered (k + G.places.idxOf place)

theorem WellFormed.namesFrom_naming (wf : G.WellFormed) (k : Nat) :
    NamesFrom (G.naming k) k G.places := by
  refine List.ext_getElem ?_ fun i here there => ?_
  · rw [List.length_map, List.length_map, List.length_range']
  · rw [List.getElem_map, List.getElem_map, List.getElem_range', naming,
      wf.nodup_places.idxOf_getElem, Nat.one_mul]

/-- There are as many places as there are blocks. -/
theorem WellFormed.length_places (wf : G.WellFormed) : G.places.length = G.blocks.length := by
  rw [← @length_freshBodies G 0, freshBodies_eq (wf.namesFrom_naming 0), List.length_map]

theorem WellFormed.binaryForm_eq (wf : G.WellFormed) (k : Nat) :
    G.binaryForm k = G.binaryFormBy (G.naming k) :=
  binaryForm_eq_of_namesFrom (wf.namesFrom_naming k)

end Grammar

end ContextFree

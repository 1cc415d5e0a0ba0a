import ContextFree.Proofs.Nullable
import Mathlib.Data.Bool.Basic
import Mathlib.Data.List.Forall2
import Mathlib.Data.List.Lex

/-!
# The order of variants

A variant of a body is told by marks, one for each occurrence in the body: what is marked is left
out, and nothing but a nullable non-terminal may be marked (`Body.IsMarking`). A body has one
marking for each choice of nullable occurrences. These choices are the members of a **product**
(`choices`), with a list of one or two marks at each place. A product lists its members in
lexicographic order if the lists at its places are in order, the last place varying fastest
(`pairwise_choices`). Here present comes before absent.

Different markings, of one body or of several, may leave the same word. It is listed once, at the
first of its appearances (`Appearance`); for that is what erasing repetitions does to a list that is
put together from an ordered one (`pairwise_eraseDups_map`). So the bodies of a non-terminal after
the elimination of empty bodies are known with their order (`Grammar.ListsVariants`), and no other
list would do (`Grammar.WellFormed.exists_listsVariants_iff`).
-/

namespace ContextFree

/-! ### Products -/

section Products

variable {α : Type} {xss : List (List α)} {ys : List α}

/-- All ways to choose one member of each list, the choice from the last list varying fastest. -/
def choices : List (List α) → List (List α)
  | [] => [[]]
  | xs :: rest => xs.flatMap fun x => (choices rest).map (x :: ·)

/-- The members of a product have a member of each list, place by place. -/
theorem mem_choices_iff : ys ∈ choices xss ↔ List.Forall₂ (fun xs y => y ∈ xs) xss ys := by
  induction xss generalizing ys with
  | nil => rw [choices, List.mem_singleton, List.forall₂_nil_left_iff]
  | cons xs rest ih =>
    rw [choices, List.mem_flatMap, List.forall₂_cons_left_iff]
    constructor
    · rintro ⟨x, hx, mem⟩
      obtain ⟨zs, hzs, rfl⟩ := List.mem_map.mp mem
      exact ⟨x, zs, hx, ih.mp hzs, rfl⟩
    · rintro ⟨x, zs, hx, hzs, rfl⟩
      exact ⟨x, hx, List.mem_map_of_mem (ih.mpr hzs)⟩

/-- **A product of ordered lists is ordered**: of two members, the one comes first that has the
lesser choice where they first differ. -/
theorem pairwise_choices [LT α] (ordered : ∀ xs ∈ xss, xs.Pairwise (· < ·)) :
    (choices xss).Pairwise (· < ·) := by
  induction xss with
  | nil => exact List.pairwise_singleton _ _
  | cons xs rest ih =>
    obtain ⟨first, others⟩ := List.forall_mem_cons.mp ordered
    rw [choices, List.pairwise_flatMap]
    refine ⟨fun x _ => ?_, first.imp fun {x y} less => ?_⟩
    · -- with the same first choice, the other choices decide
      rw [List.pairwise_map]
      exact (ih others).imp fun {zs zs'} h => List.cons_lt_cons_iff.mpr (.inr ⟨rfl, h⟩)
    · -- a lesser first choice decides alone
      intro zs hzs zs' hzs'
      obtain ⟨us, _, rfl⟩ := List.mem_map.mp hzs
      obtain ⟨us', _, rfl⟩ := List.mem_map.mp hzs'
      exact List.cons_lt_cons_iff.mpr (.inl less)

end Products

/-! ### First appearances -/

/-- **Erasing repetitions keeps first appearances**: where an ordered list is mapped to another one,
a value stands before all those values that come from later members only. -/
theorem pairwise_eraseDups_map {α β : Type} [BEq α] [LawfulBEq α] {R : β → β → Prop} {xs : List β}
    (f : β → α) (ordered : xs.Pairwise R) :
    (xs.map f).eraseDups.Pairwise fun u v => ∃ x ∈ xs, f x = u ∧ ∀ y ∈ xs, f y = v → R x y := by
  induction xs with
  | nil => exact .nil
  | cons x xs ih =>
    obtain ⟨before, ordered⟩ := List.pairwise_cons.mp ordered
    rw [List.map_cons, List.eraseDups_cons, eraseDups_filter, List.pairwise_cons]
    constructor
    · -- the value of the first member appears there, and no other value does
      intro v hv
      refine ⟨x, List.mem_cons_self, rfl, ?_⟩
      rintro y hy rfl
      have other : f y ≠ f x := by simpa using (List.mem_filter.mp hv).2
      rcases List.mem_cons.mp hy with rfl | hy
      · exact absurd rfl other
      · exact before y hy
    · -- the values after it do not come from the first member
      refine ((ih ordered).filter _).imp_of_mem ?_
      rintro u v _ hv ⟨y, hy, eq, later⟩
      have other : v ≠ f x := by simpa using (List.mem_filter.mp hv).2
      refine ⟨y, List.mem_cons_of_mem x hy, eq, fun z hz same => ?_⟩
      rcases List.mem_cons.mp hz with rfl | hz
      · exact absurd same.symm other
      · exact later z hz same

/-! ### Markings of a body -/

namespace Body

variable {nullable : List Name} {body : Body} {marks : List Bool}

/-- What remains of a body when the marked occurrences are left out. -/
def remaining (body : Body) (marks : List Bool) : Body :=
  (body.zip marks).filterMap fun (s, out) => if out then none else some s

/-- There is one mark for each occurrence in the body, and only optional non-terminals are marked as
left out. -/
def IsMarking (optional : Name → Prop) (body : Body) (marks : List Bool) : Prop :=
  List.Forall₂ (fun s out => out = true → ∃ B, optional B ∧ s = .nonterminal B) body marks

/-- The marks that an occurrence may have: present, and then absent if it is nullable. -/
def marksOf (nullable : List Name) : Symbol → List Bool
  | .terminal _ => [false]
  | .nonterminal A => if nullable.contains A then [false, true] else [false]

theorem mem_marksOf_iff {s : Symbol} {out : Bool} :
    out ∈ marksOf nullable s ↔ (out = true → ∃ B ∈ nullable, s = .nonterminal B) := by
  cases s with
  | terminal a => simp [marksOf]
  | nonterminal A => by_cases h : A ∈ nullable <;> simp [marksOf, h]

theorem pairwise_marksOf (s : Symbol) : (marksOf nullable s).Pairwise (· < ·) := by
  cases s with
  | terminal a => exact List.pairwise_singleton _ _
  | nonterminal A =>
    rw [marksOf]
    split <;> decide

/-- All markings of a body. -/
def markings (nullable : List Name) (body : Body) : List (List Bool) :=
  choices (body.map (marksOf nullable))

theorem mem_markings_iff :
    marks ∈ markings nullable body ↔ body.IsMarking (· ∈ nullable) marks := by
  rw [markings, mem_choices_iff, List.forall₂_map_left_iff, IsMarking]
  simp only [mem_marksOf_iff]

theorem pairwise_markings : (markings nullable body).Pairwise (· < ·) := by
  refine pairwise_choices fun marks mem => ?_
  obtain ⟨s, _, rfl⟩ := List.mem_map.mp mem
  exact pairwise_marksOf s

theorem markings_cons (s : Symbol) (rest : Body) :
    markings nullable (s :: rest) =
      (marksOf nullable s).flatMap fun out => (markings nullable rest).map (out :: ·) := rfl

/-- The first occurrence stands in front of what is left of the others, and then only these are
left. -/
theorem variants_cons (s : Symbol) (rest : Body) :
    variants nullable (s :: rest) = (marksOf nullable s).flatMap fun out =>
      if out then variants nullable rest else (variants nullable rest).map (s :: ·) := by
  cases s with
  | terminal a => simp [variants, marksOf]
  | nonterminal A => by_cases h : A ∈ nullable <;> simp [variants, marksOf, h]

/-- **The variants of a body are what its markings leave**, in the order of the markings. -/
theorem variants_eq (body : Body) :
    variants nullable body = (markings nullable body).map body.remaining := by
  induction body with
  | nil => rfl
  | cons s rest ih =>
    rw [variants_cons, markings_cons, List.map_flatMap]
    refine List.flatMap_congr fun out _ => ?_
    rw [List.map_map]
    -- the mark of the first occurrence decides whether it stays in front
    cases out with
    | false =>
      rw [if_neg Bool.false_ne_true, ih, List.map_map]
      rfl
    | true =>
      rw [if_pos rfl, ih]
      rfl

end Body

/-! ### Appearances -/

/-- Where a variant comes from: a body, its number among several bodies, and a marking of it. -/
structure Appearance where
  body : Body
  index : Nat
  marks : List Bool

namespace Appearance

variable {nullable : List Name} {bodies : List Body} {p q : Appearance}

/-- The word that appears. -/
def word (p : Appearance) : Body := p.body.remaining p.marks

/-- The body comes first, or it is the same body and the marking comes first: where the two markings
first differ, this one has the occurrence present. -/
def Before (p q : Appearance) : Prop := p.index < q.index ∨ p.index = q.index ∧ p.marks < q.marks

theorem Before.asymm (h : p.Before q) : ¬ q.Before p := by
  rintro (less | ⟨eq, less⟩)
  · rcases h with less' | ⟨eq, _⟩
    · exact lt_asymm less less'
    · exact less.ne' eq
  · rcases h with less' | ⟨_, less'⟩
    · exact less'.ne' eq
    · exact lt_asymm less less'

/-- The body is one of these bodies, and only occurrences of optional non-terminals are left out. -/
structure IsAmong (optional : Name → Prop) (bodies : List Body) (p : Appearance) : Prop where
  getElem?_eq : bodies[p.index]? = some p.body
  isMarking : p.body.IsMarking optional p.marks

/-- All appearances, body after body and marking after marking. -/
def all (nullable : List Name) (bodies : List Body) : List Appearance :=
  bodies.zipIdx.flatMap fun (body, index) =>
    (Body.markings nullable body).map fun marks => ⟨body, index, marks⟩

theorem mem_all_iff : p ∈ all nullable bodies ↔ p.IsAmong (· ∈ nullable) bodies := by
  rw [all, List.mem_flatMap]
  constructor
  · rintro ⟨⟨body, index⟩, numbered, mem⟩
    obtain ⟨marks, hmarks, rfl⟩ := List.mem_map.mp mem
    exact ⟨List.mk_mem_zipIdx_iff_getElem?.mp numbered, Body.mem_markings_iff.mp hmarks⟩
  · rintro ⟨found, marking⟩
    refine ⟨(p.body, p.index), List.mk_mem_zipIdx_iff_getElem?.mpr found, List.mem_map.mpr ?_⟩
    exact ⟨p.marks, Body.mem_markings_iff.mpr marking, rfl⟩

theorem pairwise_all : (all nullable bodies).Pairwise Before := by
  have increasing : bodies.zipIdx.Pairwise fun numbered later => numbered.2 < later.2 := by
    rw [← List.pairwise_map, List.zipIdx_map_snd]
    exact List.pairwise_lt_range' 1
  rw [all, List.pairwise_flatMap]
  refine ⟨fun _ _ => ?_, increasing.imp fun less => ?_⟩
  · -- the appearances in one body are ordered by their markings
    rw [List.pairwise_map]
    exact Body.pairwise_markings.imp fun less => .inr ⟨rfl, less⟩
  · intro p hp q hq
    obtain ⟨_, _, rfl⟩ := List.mem_map.mp hp
    obtain ⟨_, _, rfl⟩ := List.mem_map.mp hq
    exact .inl less

theorem map_word_all (nullable : List Name) (bodies : List Body) :
    (all nullable bodies).map word = bodies.flatMap (Body.variants nullable) := by
  calc (all nullable bodies).map word
      = bodies.zipIdx.flatMap fun numbered => Body.variants nullable numbered.1 := by
        rw [all, List.map_flatMap]
        refine List.flatMap_congr fun numbered _ => ?_
        rw [Body.variants_eq, List.map_map]
        rfl
    _ = (bodies.zipIdx.map Prod.fst).flatMap (Body.variants nullable) := (List.flatMap_map ..).symm
    _ = bodies.flatMap (Body.variants nullable) := by rw [List.zipIdx_map_fst]

end Appearance

/-! ### The order of the bodies -/

namespace Grammar

open Appearance (all word)

variable {G : Grammar} {A : Name} {listed other : List Body}

/-- The empty body has no variant but itself, so that it may as well be left where it is. -/
theorem filter_flatMap_variants_filter (nullable : List Name) (bodies : List Body) :
    ((bodies.filter (· ≠ [])).flatMap (Body.variants nullable)).filter (· ≠ []) =
      (bodies.flatMap (Body.variants nullable)).filter (· ≠ []) := by
  induction bodies with
  | nil => rfl
  | cons body bodies ih =>
    rw [List.flatMap_cons, List.filter_append, ← ih]
    by_cases empty : body = []
    · subst empty
      rfl
    · rw [List.filter_cons_of_pos (by simpa using empty), List.flatMap_cons, List.filter_append]

/-- Every word that appears is listed once, unless it is empty. -/
theorem nonemptyVariants_eq (nullable : List Name) (bodies : List Body) :
    nonemptyVariants nullable bodies =
      ((all nullable bodies).map word).eraseDups.filter (· ≠ []) := by
  rw [nonemptyVariants, filter_flatMap_variants_filter, eraseDups_filter, Appearance.map_word_all]

/-- The appearance is one of a variant of a body of `A`: what is left out are non-terminals that
generate the empty word. -/
def HasAppearance (G : Grammar) (A : Name) (p : Appearance) : Prop :=
  p.IsAmong (G.Generates · []) (G.bodies A)

theorem WellFormed.hasAppearance_iff (wf : G.WellFormed) {p : Appearance} :
    G.HasAppearance A p ↔ p ∈ all G.nullables (G.bodies A) := by
  have nullable : (G.Generates · []) = (· ∈ G.nullables) :=
    funext fun _ => propext wf.mem_nullables_iff.symm
  rw [HasAppearance, nullable, Appearance.mem_all_iff]

/-- The list has the variants of the bodies of `A`. -/
structure ListsVariants (G : Grammar) (A : Name) (listed : List Body) : Prop where
  /-- No word is listed twice. -/
  nodup : listed.Nodup
  /-- What is listed are the words that appear, but for the empty one. -/
  mem_iff : ∀ variant, variant ∈ listed ↔
    variant ≠ [] ∧ ∃ p, G.HasAppearance A p ∧ p.word = variant
  /-- A word that is listed before another one appears before the other one does. -/
  in_order : listed.Pairwise fun u v => ∃ p, G.HasAppearance A p ∧ p.word = u ∧
    ∀ q, G.HasAppearance A q → q.word = v → p.Before q

/-- **There is one such list.** Of two words, only one can be the first to appear. -/
theorem ListsVariants.unique (h : G.ListsVariants A listed) (h' : G.ListsVariants A other) :
    listed = other := by
  have perm : listed.Perm other := by
    refine (List.perm_ext_iff_of_nodup h.nodup h'.nodup).mpr fun variant => ?_
    rw [h.mem_iff, h'.mem_iff]
  refine List.Perm.eq_of_pairwise ?_ h.in_order h'.in_order perm
  -- the first appearance of `u` is before that of `v`, and the other way round
  rintro u v _ _ ⟨p, hp, hu, first⟩ ⟨q, hq, hv, first'⟩
  exact absurd (first' p hp hu) (first q hq hv).asymm

theorem WellFormed.listsVariants_withoutEmpty (wf : G.WellFormed) :
    G.ListsVariants A ((G.withoutEmpty G.nullables).bodies A) := by
  rw [bodies_withoutEmpty, nonemptyVariants_eq]
  refine ⟨(nodup_eraseDups _).filter _, fun variant => ?_, ?_⟩
  · simp only [wf.hasAppearance_iff]
    rw [List.mem_filter, List.mem_eraseDups, List.mem_map, decide_eq_true_iff, and_comm]
  · simp only [wf.hasAppearance_iff]
    exact (pairwise_eraseDups_map word Appearance.pairwise_all).filter _

/-- **The bodies after the elimination of empty bodies, in order.** A non-terminal has the non-empty
words that remain of its bodies when some nullable occurrences are left out. Each of them is listed
once, and they are in the order of their first appearance. -/
theorem WellFormed.exists_listsVariants_iff (wf : G.WellFormed) :
    ∃ H, G.eliminateEmpty.outcome = .ok H ∧ H.nonterminals = G.nonterminals ∧
      ∀ A listed, G.ListsVariants A listed ↔ listed = H.bodies A := by
  refine ⟨_, wf.outcome_eliminateEmpty, rfl, fun A listed => ⟨fun h => ?_, ?_⟩⟩
  · exact h.unique wf.listsVariants_withoutEmpty
  · rintro rfl
    exact wf.listsVariants_withoutEmpty

/-- The grammar `S → A b A | A A | b A`, `A → a | ε`. -/
def optionals : Grammar where
  start := .ofCons 'S' []
  nonterminals := [.ofCons 'S' [], .ofCons 'A' []]
  terminals := [.ofCons 'a' [], .ofCons 'b' []]
  rules := [
    ⟨.ofCons 'S' [],
      [[.nonterminal (.ofCons 'A' []), .terminal (.ofCons 'b' []), .nonterminal (.ofCons 'A' [])],
        [.nonterminal (.ofCons 'A' []), .nonterminal (.ofCons 'A' [])],
        [.terminal (.ofCons 'b' []), .nonterminal (.ofCons 'A' [])]]⟩,
    ⟨.ofCons 'A' [], [[.terminal (.ofCons 'a' [])], []]⟩]

/-- The body `A A` has two variants `A`, and the variants of `b A` have appeared before. -/
theorem optionals_listsVariants :
    optionals.WellFormed ∧ optionals.ListsVariants (.ofCons 'S' []) [
      [.nonterminal (.ofCons 'A' []), .terminal (.ofCons 'b' []), .nonterminal (.ofCons 'A' [])],
      [.nonterminal (.ofCons 'A' []), .terminal (.ofCons 'b' [])],
      [.terminal (.ofCons 'b' []), .nonterminal (.ofCons 'A' [])],
      [.terminal (.ofCons 'b' [])],
      [.nonterminal (.ofCons 'A' []), .nonterminal (.ofCons 'A' [])],
      [.nonterminal (.ofCons 'A' [])]] := by
  have wf : optionals.WellFormed := wellFormed_iff_ofRows?_eq_ok.mpr (by decide +kernel)
  obtain ⟨H, ok, _, lists⟩ := wf.exists_listsVariants_iff
  have same : optionals.withoutEmpty optionals.nullables = H :=
    Except.ok.inj (wf.outcome_eliminateEmpty.symm.trans ok)
  refine ⟨wf, (lists _ _).mpr ?_⟩
  rw [← same]
  decide +kernel

end Grammar

end ContextFree

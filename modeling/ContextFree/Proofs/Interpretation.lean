import ContextFree.Derivation

/-!
# Interpretations of a grammar

An **interpretation** says of every non-terminal which words it stands for. Under an
interpretation a body can be read (`Body.Reads`): its words fall into one piece for each symbol,
a terminal standing for itself and a non-terminal for what the interpretation gives it.

An interpretation is **closed** under a grammar if whatever it reads from a body it also gives to
the left-hand side (`Grammar.IsClosed`). What the grammar generates is the least closed
interpretation:

* `Grammar.isClosed_generates` — it is closed;
* `Grammar.IsClosed.of_generates` — every closed interpretation gives a non-terminal at least the
  words that it generates.

Two grammars are compared through these two facts. To see that one of them generates no more than
the other, it is enough that its rules do not lead out of the words of the other; no derivation
has to be taken apart. `Grammar.generates_induction` is the form in which something is shown of
the words of a non-terminal that involves the derivation of these words as well.
-/

namespace ContextFree

/-- Of which words a non-terminal stands for. -/
abbrev Interpretation := Name → List Name → Prop

namespace Body

/-- The words of a body under an interpretation. -/
def Reads (I : Interpretation) : Body → List Name → Prop
  | [], w => w = []
  | .terminal a :: rest, w => ∃ v, w = a :: v ∧ Reads I rest v
  | .nonterminal A :: rest, w => ∃ u v, w = u ++ v ∧ I A u ∧ Reads I rest v

variable {I J : Interpretation}

/-- Reading is monotone: it is enough to compare the non-terminals that the body mentions. -/
theorem Reads.mono {body : Body} {w : List Name}
    (h : ∀ A, .nonterminal A ∈ body → ∀ u, I A u → J A u) (reads : body.Reads I w) :
    body.Reads J w := by
  induction body generalizing w with
  | nil => exact reads
  | cons s rest ih =>
    have below : ∀ A, .nonterminal A ∈ rest → ∀ u, I A u → J A u :=
      fun A mem => h A (List.mem_cons_of_mem s mem)
    cases s with
    | terminal a =>
      obtain ⟨v, rfl, hv⟩ := reads
      exact ⟨v, rfl, ih below hv⟩
    | nonterminal A =>
      -- the word of the first symbol goes over, the rest is the induction hypothesis
      obtain ⟨u, v, rfl, hu, hv⟩ := reads
      have hu' : J A u := h A List.mem_cons_self u hu
      exact ⟨u, v, rfl, hu', ih below hv⟩

/-- **The empty word falls into empty pieces**: a body reads it if and only if it consists of
non-terminals that stand for it. -/
theorem reads_nil_iff {body : Body} :
    body.Reads I [] ↔ ∀ s ∈ body, ∃ B, I B [] ∧ s = .nonterminal B := by
  induction body with
  | nil => exact ⟨fun _ => nofun, fun _ => rfl⟩
  | cons s rest ih =>
    rw [List.forall_mem_cons, ← ih]
    cases s with
    | terminal a =>
      constructor
      · rintro ⟨v, eq, _⟩
        cases eq
      · rintro ⟨⟨B, _, eq⟩, _⟩
        cases eq
    | nonterminal A =>
      constructor
      · rintro ⟨u, v, eq, hu, hv⟩
        obtain ⟨rfl, rfl⟩ := List.append_eq_nil_iff.mp eq.symm
        exact ⟨⟨A, hu, rfl⟩, hv⟩
      · rintro ⟨⟨B, hB, eq⟩, hv⟩
        cases eq
        exact ⟨[], [], rfl, hB, hv⟩

/-- What is read from a body is made up of words of the non-terminals that it mentions. -/
theorem Reads.exists_of_mem {body : Body} {w : List Name} (reads : body.Reads I w) {A : Name}
    (mem : .nonterminal A ∈ body) : ∃ u, I A u := by
  induction body generalizing w with
  | nil => cases mem
  | cons s rest ih =>
    cases s with
    | terminal a =>
      -- the non-terminal is not the first symbol
      obtain ⟨v, rfl, hv⟩ := reads
      have mem' : .nonterminal A ∈ rest := by simpa using mem
      exact ih hv mem'
    | nonterminal B =>
      obtain ⟨u, v, rfl, hu, hv⟩ := reads
      rcases List.mem_cons.mp mem with eq | mem'
      · cases eq
        exact ⟨u, hu⟩
      · exact ih hv mem'

end Body

namespace Grammar

variable {G : Grammar} {I : Interpretation}

/-- To derive a word is to read it under what the grammar generates. -/
theorem derives_iff_reads {body : Body} {w : List Name} :
    G.Derives body w ↔ body.Reads G.Generates w := by
  induction body generalizing w with
  | nil => exact derives_nil_iff
  | cons s rest ih =>
    cases s with
    | terminal a =>
      rw [derives_terminal_iff]
      exact exists_congr fun v => and_congr_right fun _ => ih
    | nonterminal A =>
      rw [derives_nonterminal_iff]
      exact exists_congr fun u => exists_congr fun v =>
        and_congr_right fun _ => and_congr_right fun _ => ih

/-- The rules of the grammar do not lead out of the interpretation. -/
def IsClosed (G : Grammar) (I : Interpretation) : Prop :=
  ∀ A, ∀ body ∈ G.bodies A, ∀ w, body.Reads I w → I A w

/-- **What a grammar generates is closed** under the grammar. -/
theorem isClosed_generates (G : Grammar) : G.IsClosed G.Generates :=
  fun _ body mem _ reads => ⟨body, mem, derives_iff_reads.mpr reads⟩

theorem IsClosed.reads_of_derives (closed : G.IsClosed I) {body : Body} {w : List Name}
    (h : G.Derives body w) : body.Reads I w := by
  induction h with
  | nil => rfl
  | terminal _ ih => exact ⟨_, rfl, ih⟩
  | nonterminal mem _ _ ihu ihv => exact ⟨_, _, rfl, closed _ _ mem _ ihu, ihv⟩

/-- **What a grammar generates is least** among the interpretations that are closed under it. -/
theorem IsClosed.of_generates (closed : G.IsClosed I) {A : Name} {w : List Name}
    (h : G.Generates A w) : I A w := by
  obtain ⟨body, mem, hw⟩ := h
  exact closed A body mem w (closed.reads_of_derives hw)

/-- Induction on what is generated: a body may be read with pieces of which it is known both that
they are generated and that the interpretation has them. -/
theorem generates_induction
    (step : ∀ A, ∀ body ∈ G.bodies A, ∀ w,
      body.Reads (fun B u => G.Generates B u ∧ I B u) w → I A w)
    {A : Name} {w : List Name} (h : G.Generates A w) : I A w := by
  -- the words that are generated and that the interpretation has are closed as well
  have closed : G.IsClosed fun B u => G.Generates B u ∧ I B u := by
    intro B body mem u reads
    have generated : body.Reads G.Generates u := reads.mono fun _ _ _ both => both.1
    exact ⟨isClosed_generates G B body mem u generated, step B body mem u reads⟩
  exact (closed.of_generates h).2

/-- What a body derives is derived in another grammar as well, if the non-terminals that the
body mentions generate there what they generate here. -/
theorem Derives.mono {H : Grammar} {body : Body} {w : List Name}
    (h : ∀ A, .nonterminal A ∈ body → ∀ u, G.Generates A u → H.Generates A u)
    (derives : G.Derives body w) : H.Derives body w :=
  derives_iff_reads.mpr ((derives_iff_reads.mp derives).mono h)

/-- **More bodies, more words**: a grammar that has all bodies of another one generates what that
one generates. -/
theorem Generates.of_bodies_subset {H : Grammar} (sub : ∀ A, ∀ body ∈ G.bodies A, body ∈ H.bodies A)
    {A : Name} {w : List Name} (h : G.Generates A w) : H.Generates A w := by
  have closed : G.IsClosed H.Generates := by
    intro B body mem u reads
    exact isClosed_generates H B body (sub B body mem) u reads
  exact closed.of_generates h

/-- Where no body is empty, no non-terminal generates the empty word. -/
theorem Generates.ne_nil {A : Name} {w : List Name} (nonempty : ∀ A, [] ∉ G.bodies A)
    (h : G.Generates A w) : w ≠ [] := by
  have closed : G.IsClosed fun _ u => u ≠ [] := by
    intro B body mem u reads
    cases body with
    | nil => exact absurd mem (nonempty B)
    | cons s rest =>
      -- the first symbol alone stands for something
      cases s with
      | terminal a =>
        obtain ⟨v, rfl, _⟩ := reads
        exact List.cons_ne_nil a v
      | nonterminal C =>
        obtain ⟨u, v, rfl, hu, _⟩ := reads
        exact fun eq => hu (List.append_eq_nil_iff.mp eq).1
  exact closed.of_generates h

end Grammar

end ContextFree

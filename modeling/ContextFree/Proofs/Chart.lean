import ContextFree.Chart.Fill
import ContextFree.Proofs.NormalGrammar

/-!
# What a filled chart holds

Filling a chart goes over its diagonals, from the main one upwards, over the cells of a diagonal,
and over the cuts of a cell. How far it has come is said by the relation between places and
non-terminals that the chart shows (`Chart.Shows`):

* between two cells, everything that is right about the cells before (`Grammar.Entered`);
* between two cuts of a cell, in addition what the cuts before give to this cell.

A cut looks at two cells of earlier diagonals. There the chart is complete by then, so the cut
enters just the non-terminals that have a pair over the two parts
(`NormalGrammar.exists_fillCut`). When all cuts of a cell have been tried, the cell is complete,
because a word of at least two symbols is generated by a pair and a cut
(`Grammar.covers_iff_exists_cut`).

None of this leaves the square: every step succeeds on a chart that shows something.
-/

namespace ContextFree

/-- **A loop that keeps an invariant comes to its end.** The invariant may count the steps. -/
theorem exists_foldlM_eq_ok {α β ε : Type} {f : β → α → Except ε β} {xs : List α}
    (I : Nat → β → Prop) {b : β} (init : I 0 b)
    (step : ∀ i x, xs[i]? = some x → ∀ b, I i b → ∃ c, f b x = .ok c ∧ I (i + 1) c) :
    ∃ c, xs.foldlM f b = .ok c ∧ I xs.length c := by
  induction xs generalizing I b with
  | nil => exact ⟨b, rfl, init⟩
  | cons x xs ih =>
    obtain ⟨c, hc, hI⟩ := step 0 x rfl b init
    obtain ⟨d, hd, hI⟩ := ih (fun i => I (i + 1)) hI fun i y hy => step (i + 1) y hy
    refine ⟨d, ?_, hI⟩
    rw [List.foldlM_cons, hc]
    exact hd

/-- The same for a counted loop. -/
theorem exists_foldlM_range_eq_ok {β ε : Type} {f : β → Nat → Except ε β} {s n : Nat}
    (I : Nat → β → Prop) {b : β} (init : I 0 b)
    (step : ∀ t < n, ∀ b, I t b → ∃ c, f b (s + t) = .ok c ∧ I (t + 1) c) :
    ∃ c, (List.range' s n).foldlM f b = .ok c ∧ I n c := by
  have inRange : ∀ t x, (List.range' s n)[t]? = some x → ∀ b, I t b →
      ∃ c, f b x = .ok c ∧ I (t + 1) c := by
    intro t x found b hI
    obtain ⟨ht, rfl⟩ := List.getElem?_eq_some_iff.mp found
    rw [List.length_range'] at ht
    rw [List.getElem_range', Nat.one_mul]
    exact step t ht b hI
  have loop := exists_foldlM_eq_ok I init inRange
  rw [List.length_range'] at loop
  exact loop

/-! ### Stretches of a word -/

/-- The stretch of a word from symbol `i` up to and including symbol `j`. -/
def stretch (w : List Name) (i j : Nat) : List Name := (w.drop i).take (j + 1 - i)

section Stretch

variable {w : List Name} {i j k : Nat}

theorem stretch_self {a : Name} (found : w[i]? = some a) : stretch w i i = [a] := by
  rw [stretch, Nat.add_sub_cancel_left, List.take_one, List.head?_drop, found]
  rfl

theorem stretch_all (h : w ≠ []) : stretch w 0 (w.length - 1) = w := by
  have := List.length_pos_of_ne_nil h
  rw [stretch, List.drop_zero, Nat.sub_zero, Nat.sub_add_cancel this, List.take_length]

theorem length_stretch (hj : j < w.length) : (stretch w i j).length = j + 1 - i := by
  rw [stretch, List.length_take, List.length_drop]
  omega

theorem take_stretch (hk : k ≤ j) : (stretch w i j).take (k + 1 - i) = stretch w i k := by
  rw [stretch, List.take_take, Nat.min_eq_left (by omega)]
  rfl

theorem drop_stretch (hi : i ≤ k) : (stretch w i j).drop (k + 1 - i) = stretch w (k + 1) j := by
  have start : i + (k + 1 - i) = k + 1 := by omega
  have length : j + 1 - i - (k + 1 - i) = j + 1 - (k + 1) := by omega
  rw [stretch, List.drop_take, List.drop_drop, start, length]
  rfl

end Stretch

/-! ### Charts and relations -/

namespace Chart

variable {chart : Chart} {word : List Name} {start : Name} {R S : Nat → Nat → Name → Prop}

/-- The chart is a square over the word, and its cells hold what a relation says they hold. -/
structure Shows (chart : Chart) (word : List Name) (start : Name)
    (R : Nat → Nat → Name → Prop) : Prop where
  word_eq : chart.word = word
  start_eq : chart.start = start
  size_eq : chart.cells.size = word.length
  row_size : ∀ (i : Nat) (row : Array (List Name)),
    chart.cells[i]? = some row → row.size = word.length
  /-- Every cell of the square can be read. -/
  cell : ∀ i j : Nat, i < word.length → j < word.length →
    ∃ cell, chart.cell i j = .ok cell ∧ ∀ A, A ∈ cell ↔ R i j A

theorem shows_blank (word : List Name) (start : Name) :
    (blank word start).Shows word start fun _ _ _ => False where
  word_eq := rfl
  start_eq := rfl
  size_eq := Array.size_replicate
  row_size i row found := by
    obtain ⟨_, rfl⟩ := Array.getElem?_eq_some_iff.mp found
    simp [blank]
  cell i j hi hj := ⟨[], cell_blank hi hj, fun A => by simp⟩

/-- Inside the square it does not matter how the relation is put. -/
theorem Shows.congr (h : chart.Shows word start R)
    (iff : ∀ i j, i < word.length → j < word.length → ∀ A, R i j A ↔ S i j A) :
    chart.Shows word start S where
  word_eq := h.word_eq
  start_eq := h.start_eq
  size_eq := h.size_eq
  row_size := h.row_size
  cell i j hi hj := by
    obtain ⟨cell, hcell, mem⟩ := h.cell i j hi hj
    exact ⟨cell, hcell, fun A => (mem A).trans (iff i j hi hj A)⟩

/-- **Adding to a cell of the square** succeeds and changes this cell only. -/
theorem Shows.exists_add (h : chart.Shows word start R) {i j : Nat} (hi : i < word.length)
    (hj : j < word.length) (names : List Name) :
    ∃ next, chart.add i j names = .ok next ∧
      next.Shows word start fun k l A => R k l A ∨ k = i ∧ l = j ∧ A ∈ names := by
  obtain ⟨old, hold, mem⟩ := h.cell i j hi hj
  refine ⟨_, add_of_cell hold, h.word_eq, h.start_eq, ?_, ?_, ?_⟩
  · rw [put, Array.size_modify]
    exact h.size_eq
  · intro k row found
    rw [put, Array.getElem?_modify] at found
    split at found
    · next same =>
      obtain ⟨old, hrow, rfl⟩ := Option.map_eq_some_iff.mp found
      rw [Array.size_setIfInBounds]
      exact h.row_size k old hrow
    · exact h.row_size k row found
  · intro k l hk hl
    by_cases same : (k, l) = (i, j)
    · -- the cell that is added to
      cases same
      refine ⟨_, cell_put_self hold, fun A => ?_⟩
      rw [List.mem_eraseDups, List.mem_append, mem A]
      simp
    · -- any other cell
      obtain ⟨cell, hcell, mem⟩ := h.cell k l hk hl
      refine ⟨cell, (cell_put_of_ne same).trans hcell, fun A => (mem A).trans ?_⟩
      have apart : ¬ (k = i ∧ l = j ∧ A ∈ names) := by
        rintro ⟨rfl, rfl, _⟩
        exact same rfl
      exact (or_iff_left apart).symm

/-- A chart accepts if it shows the start symbol for the whole word. -/
theorem Shows.accepts_iff (h : chart.Shows word start R) :
    chart.accepts ↔ word ≠ [] ∧ R 0 (word.length - 1) start := by
  by_cases empty : word = []
  · -- there is no row to look at
    have none : chart.cells[0]? = none := by
      rw [Array.getElem?_eq_none_iff, h.size_eq, empty]
      exact Nat.le_refl 0
    rw [accepts, none]
    simp [empty]
  · -- the last cell of the first row is the one in the last column
    have pos := List.length_pos_of_ne_nil empty
    obtain ⟨cell, hcell, mem⟩ := h.cell 0 (word.length - 1) pos (by omega)
    obtain ⟨row, hrow, last⟩ := cell_eq_ok_iff.mp hcell
    have back : row.back? = some cell := by
      rw [Array.back?_eq_getElem?, h.row_size 0 row hrow]
      exact last
    rw [accepts, hrow, Option.bind_some, back, Option.any_some, h.start_eq,
      List.contains_iff_mem, mem]
    exact (and_iff_right empty).symm

end Chart

/-! ### What is right about a cell -/

namespace Grammar

variable {G : Grammar} {w : List Name} {i j k : Nat} {A : Name}

/-- The non-terminal generates the stretch from `i` up to and including `j`. -/
def Covers (G : Grammar) (w : List Name) (i j : Nat) (A : Name) : Prop :=
  i ≤ j ∧ G.Generates A (stretch w i j)

/-- The non-terminal has a pair over the two parts of the stretch that is cut behind `k`. -/
def CoversCut (G : Grammar) (w : List Name) (i k j : Nat) (A : Name) : Prop :=
  ∃ B C, [.nonterminal B, .nonterminal C] ∈ G.bodies A ∧ G.Covers w i k B ∧ G.Covers w (k + 1) j C

/-- What is right about the cells that end less than `d` places after they begin, and about those
that end `d` places after and are in the rows before `r`. -/
def Entered (G : Grammar) (w : List Name) (d r i j : Nat) (A : Name) : Prop :=
  (j < i + d ∨ j = i + d ∧ i < r) ∧ G.Covers w i j A

theorem covers_self_iff (normal : G.IsNormal) {a : Name} (found : w[i]? = some a) :
    G.Covers w i i A ↔ [.terminal a] ∈ G.bodies A := by
  rw [Covers, stretch_self found, normal.generates_singleton_iff]
  exact and_iff_right (Nat.le_refl i)

/-- **A longer stretch is covered through a cut.** -/
theorem covers_iff_exists_cut (normal : G.IsNormal) (hij : i < j) (hj : j < w.length) :
    G.Covers w i j A ↔ ∃ k, i ≤ k ∧ k < j ∧ G.CoversCut w i k j A := by
  have length := @length_stretch w i j hj
  rw [Covers, normal.generates_iff_of_two_le (by omega), length]
  refine ⟨?_, ?_⟩
  · rintro ⟨_, B, C, mem, n, pos, short, hB, hC⟩
    -- the first part has `n` symbols, so its last one has the number `i + n - 1`
    obtain ⟨k, rfl⟩ : ∃ k, n = k + 1 - i := ⟨i + n - 1, by omega⟩
    rw [take_stretch (by omega)] at hB
    rw [drop_stretch (by omega)] at hC
    exact ⟨k, by omega, by omega, B, C, mem, ⟨by omega, hB⟩, by omega, hC⟩
  · -- the first part of the stretch ends behind symbol `k`
    rintro ⟨k, hk, short, B, C, mem, ⟨_, hB⟩, _, hC⟩
    refine ⟨Nat.le_of_lt hij, B, C, mem, k + 1 - i, by omega, by omega, ?_, ?_⟩
    · rw [take_stretch (Nat.le_of_lt short)]
      exact hB
    · rw [drop_stretch hk]
      exact hC

theorem covers_all_iff (h : w ≠ []) : G.Covers w 0 (w.length - 1) A ↔ G.Generates A w := by
  rw [Covers, stretch_all h]
  exact and_iff_right (Nat.zero_le _)

/-- When all its rows are entered, a diagonal is complete. -/
theorem entered_next_iff (hj : j < w.length) (d : Nat) :
    G.Entered w d (w.length - d) i j A ↔ G.Entered w (d + 1) 0 i j A := by
  refine and_congr_left fun _ => ?_
  omega

/-- One more row of a diagonal is one more cell. -/
theorem entered_succ_iff {d r : Nat} :
    G.Entered w d (r + 1) i j A ↔
      G.Entered w d r i j A ∨ i = r ∧ j = r + d ∧ G.Covers w r (r + d) A := by
  refine ⟨?_, ?_⟩
  · rintro ⟨place, covers⟩
    by_cases new : i = r ∧ j = r + d
    · -- the next cell
      obtain ⟨rfl, rfl⟩ := new
      exact .inr ⟨rfl, rfl, covers⟩
    · exact .inl ⟨by omega, covers⟩
  · rintro (⟨place, covers⟩ | ⟨rfl, rfl, covers⟩)
    · exact ⟨by omega, covers⟩
    · exact ⟨.inr ⟨rfl, Nat.lt_succ_self i⟩, covers⟩

/-- What is entered when the first `t` cuts of the cell in row `r` of diagonal `d` have been
tried. -/
def EnteredCuts (G : Grammar) (w : List Name) (d r t i j : Nat) (A : Name) : Prop :=
  G.Entered w d r i j A ∨
    i = r ∧ j = r + d ∧ ∃ k, r ≤ k ∧ k < r + t ∧ G.CoversCut w r k (r + d) A

/-- On the earlier diagonals everything is entered. -/
theorem enteredCuts_iff_covers {d r t : Nat} (earlier : j < i + d) :
    G.EnteredCuts w d r t i j A ↔ G.Covers w i j A := by
  refine ⟨?_, ?_⟩
  · rintro (⟨_, covers⟩ | ⟨rfl, rfl, _⟩)
    · exact covers
    · exact absurd earlier (Nat.lt_irrefl _)
  · exact fun covers => .inl ⟨.inl earlier, covers⟩

theorem enteredCuts_zero_iff {d r : Nat} :
    G.EnteredCuts w d r 0 i j A ↔ G.Entered w d r i j A := by
  refine or_iff_left ?_
  rintro ⟨_, _, k, low, high, _⟩
  omega

theorem enteredCuts_succ_iff {d r t : Nat} :
    G.EnteredCuts w d r (t + 1) i j A ↔
      G.EnteredCuts w d r t i j A ∨ i = r ∧ j = r + d ∧ G.CoversCut w r (r + t) (r + d) A := by
  unfold EnteredCuts
  rw [or_assoc]
  refine or_congr_right ⟨?_, ?_⟩
  · rintro ⟨hi, hj, k, low, high, cut⟩
    by_cases new : k = r + t
    · exact .inr ⟨hi, hj, new ▸ cut⟩
    · exact .inl ⟨hi, hj, k, low, by omega, cut⟩
  · rintro (⟨hi, hj, k, low, high, cut⟩ | ⟨hi, hj, cut⟩)
    · exact ⟨hi, hj, k, low, by omega, cut⟩
    · exact ⟨hi, hj, r + t, by omega, by omega, cut⟩

/-- When all its cuts have been tried, a cell is complete. -/
theorem enteredCuts_self_iff (normal : G.IsNormal) {d r : Nat} (pos : 0 < d)
    (hr : r + d < w.length) :
    G.EnteredCuts w d r d i j A ↔ G.Entered w d (r + 1) i j A := by
  rw [entered_succ_iff, covers_iff_exists_cut normal (Nat.lt_add_of_pos_right pos) hr]
  rfl

end Grammar

/-! ### Filling -/

namespace NormalGrammar

open Grammar

variable {N : NormalGrammar} {w : List Name} {chart : Chart} {A : Name}

section Distinct

variable (distinct : N.toGrammar.leftSides.Nodup)
include distinct

/-- The bodies of the grammar, as bodies in normal form. -/
theorem mem_bodies_toGrammar_iff {b : NormalBody} :
    b.toBody ∈ N.toGrammar.bodies A ↔ ∃ rule ∈ N.rules, rule.lhs = A ∧ b ∈ rule.bodies := by
  rw [mem_bodies_iff distinct]
  refine ⟨?_, ?_⟩
  · rintro ⟨_, hrule, lhs, hbody⟩
    obtain ⟨rule, mem, rfl⟩ := List.mem_map.mp hrule
    obtain ⟨c, hc, eq⟩ := List.mem_map.mp hbody
    have same := NormalBody.ofBody_eq_ok_iff.mpr eq
    rw [NormalBody.ofBody_toBody] at same
    cases same
    exact ⟨rule, mem, lhs, hc⟩
  · rintro ⟨rule, mem, lhs, hb⟩
    exact ⟨_, List.mem_map_of_mem mem, lhs, List.mem_map_of_mem hb⟩

theorem mem_parentsOfLeaf_iff {a : Name} :
    A ∈ N.parentsOfLeaf a ↔ [.terminal a] ∈ N.toGrammar.bodies A := by
  rw [show ([.terminal a] : Body) = (NormalBody.leaf a).toBody from rfl,
    mem_bodies_toGrammar_iff distinct, parentsOfLeaf, List.mem_map]
  refine exists_congr fun rule => ?_
  rw [List.mem_filter, List.contains_iff_mem, and_assoc, and_comm (a := rule.lhs = A)]

theorem mem_parentsOfPair_iff {left right : List Name} :
    A ∈ N.parentsOfPair left right ↔
      ∃ B C, [.nonterminal B, .nonterminal C] ∈ N.toGrammar.bodies A ∧ B ∈ left ∧ C ∈ right := by
  have pair : ∀ B C, [.nonterminal B, .nonterminal C] = (NormalBody.pair B C).toBody :=
    fun _ _ => rfl
  simp only [pair, mem_bodies_toGrammar_iff distinct]
  rw [parentsOfPair, List.mem_map]
  refine ⟨?_, ?_⟩
  · rintro ⟨rule, hrule, lhs⟩
    obtain ⟨mem, spans⟩ := List.mem_filter.mp hrule
    obtain ⟨b, hb, spans⟩ := List.any_eq_true.mp spans
    cases b with
    | leaf a => cases spans
    | pair B C =>
      obtain ⟨hB, hC⟩ := Bool.and_eq_true_iff.mp spans
      exact ⟨B, C, ⟨rule, mem, lhs, hb⟩, List.contains_iff_mem.mp hB, List.contains_iff_mem.mp hC⟩
  · rintro ⟨B, C, ⟨rule, mem, lhs, hb⟩, hB, hC⟩
    refine ⟨rule, List.mem_filter.mpr ⟨mem, List.any_eq_true.mpr ⟨_, hb, ?_⟩⟩, lhs⟩
    exact Bool.and_eq_true_iff.mpr ⟨List.contains_iff_mem.mpr hB, List.contains_iff_mem.mpr hC⟩

theorem exists_add_leaf {t : Nat} {a : Name} (found : w[t]? = some a)
    (shows : chart.Shows w N.start (N.toGrammar.Entered w 0 t)) :
    ∃ next, chart.add t t (N.parentsOfLeaf a) = .ok next ∧
      next.Shows w N.start (N.toGrammar.Entered w 0 (t + 1)) := by
  obtain ⟨ht, _⟩ := List.getElem?_eq_some_iff.mp found
  obtain ⟨next, added, shows⟩ := shows.exists_add ht ht (N.parentsOfLeaf a)
  refine ⟨next, added, shows.congr fun i j _ _ A => ?_⟩
  rw [mem_parentsOfLeaf_iff distinct, ← covers_self_iff (isNormal_toGrammar N) found]
  exact entered_succ_iff.symm

theorem exists_fillLeaves (shows : chart.Shows w N.start fun _ _ _ => False) :
    ∃ next, N.fillLeaves chart = .ok next ∧
      next.Shows w N.start (N.toGrammar.Entered w 1 0) := by
  -- the main diagonal is entered leaf by leaf, and there is nothing below it
  have nothing : chart.Shows w N.start (N.toGrammar.Entered w 0 0) := by
    refine shows.congr fun i j _ _ A => (false_iff _).mpr ?_
    rintro ⟨place, le, _⟩
    omega
  have step : ∀ t (leaf : Name × Nat), chart.word.zipIdx[t]? = some leaf →
      ∀ b : Chart, b.Shows w N.start (N.toGrammar.Entered w 0 t) →
      ∃ next, b.add leaf.2 leaf.2 (N.parentsOfLeaf leaf.1) = .ok next ∧
        next.Shows w N.start (N.toGrammar.Entered w 0 (t + 1)) := by
    intro t leaf found b shown
    rw [List.getElem?_zipIdx, shows.word_eq] at found
    obtain ⟨a, ha, rfl⟩ := Option.map_eq_some_iff.mp found
    rw [Nat.zero_add]
    exact exists_add_leaf distinct ha shown
  obtain ⟨next, filled, shown⟩ := exists_foldlM_eq_ok _ nothing step
  refine ⟨next, filled, shown.congr fun i j _ hj A => ?_⟩
  rw [List.length_zipIdx, shows.word_eq]
  exact entered_next_iff hj 0

/-- **One cut** enters what has a pair over its two parts: both parts are complete. -/
theorem exists_fillCut {d r t : Nat} (hr : r + d < w.length) (ht : t < d)
    (shows : chart.Shows w N.start (N.toGrammar.EnteredCuts w d r t)) :
    ∃ next, N.fillCut r (r + d) chart (r + t) = .ok next ∧
      next.Shows w N.start (N.toGrammar.EnteredCuts w d r (t + 1)) := by
  obtain ⟨left, hleft, memLeft⟩ := shows.cell r (r + t) (by omega) (by omega)
  obtain ⟨right, hright, memRight⟩ := shows.cell (r + t + 1) (r + d) (by omega) hr
  have row : r < w.length := Nat.lt_of_le_of_lt (Nat.le_add_right r d) hr
  obtain ⟨next, added, shown⟩ := shows.exists_add row hr (N.parentsOfPair left right)
  refine ⟨next, ?_, shown.congr fun i j _ _ A => ?_⟩
  · unfold fillCut
    rw [hleft, hright]
    exact added
  · have parents : A ∈ N.parentsOfPair left right ↔
        N.toGrammar.CoversCut w r (r + t) (r + d) A := by
      -- both parts end on an earlier diagonal
      have hB : ∀ B, B ∈ left ↔ N.toGrammar.Covers w r (r + t) B :=
        fun B => (memLeft B).trans (enteredCuts_iff_covers (by omega))
      have hC : ∀ C, C ∈ right ↔ N.toGrammar.Covers w (r + t + 1) (r + d) C :=
        fun C => (memRight C).trans (enteredCuts_iff_covers (by omega))
      rw [mem_parentsOfPair_iff distinct]
      simp only [hB, hC]
      exact Iff.rfl
    rw [parents]
    exact enteredCuts_succ_iff.symm

/-- **A cell is complete** when all its cuts have been entered. -/
theorem exists_fillCell {d r : Nat} (pos : 0 < d) (hr : r + d < w.length)
    (shows : chart.Shows w N.start (N.toGrammar.Entered w d r)) :
    ∃ next, N.fillCell chart r (r + d) = .ok next ∧
      next.Shows w N.start (N.toGrammar.Entered w d (r + 1)) := by
  have none : chart.Shows w N.start (N.toGrammar.EnteredCuts w d r 0) :=
    shows.congr fun _ _ _ _ _ => enteredCuts_zero_iff.symm
  obtain ⟨next, filled, shown⟩ := exists_foldlM_range_eq_ok
    (fun t (chart : Chart) => chart.Shows w N.start (N.toGrammar.EnteredCuts w d r t)) none
    fun t ht chart shown => exists_fillCut distinct hr ht shown
  refine ⟨next, ?_, shown.congr fun _ _ _ _ _ => ?_⟩
  · -- there are as many cuts as the stretch has symbols but one
    rw [fillCell, Nat.add_sub_cancel_left]
    exact filled
  · exact enteredCuts_self_iff (isNormal_toGrammar N) pos hr

theorem exists_fillDiagonal {d : Nat} (pos : 0 < d)
    (shows : chart.Shows w N.start (N.toGrammar.Entered w d 0)) :
    ∃ next, N.fillDiagonal w.length chart d = .ok next ∧
      next.Shows w N.start (N.toGrammar.Entered w (d + 1) 0) := by
  have step : ∀ r < w.length - d, ∀ chart : Chart,
      chart.Shows w N.start (N.toGrammar.Entered w d r) →
      ∃ next, N.fillCell chart (0 + r) (0 + r + d) = .ok next ∧
        next.Shows w N.start (N.toGrammar.Entered w d (r + 1)) := by
    intro r hr chart shown
    rw [Nat.zero_add]
    exact exists_fillCell distinct pos (by omega) shown
  obtain ⟨next, filled, shown⟩ := exists_foldlM_range_eq_ok
    (f := fun chart r => N.fillCell chart r (r + d))
    (fun r (chart : Chart) => chart.Shows w N.start (N.toGrammar.Entered w d r)) shows step
  refine ⟨next, ?_, shown.congr fun _ _ _ hj _ => entered_next_iff hj d⟩
  rw [fillDiagonal, List.range_eq_range']
  exact filled

/-- **The filled chart** shows what the grammar generates. -/
theorem exists_chart_shows (w : List Name) :
    ∃ chart, N.chart w = .ok chart ∧ chart.Shows w N.start (N.toGrammar.Covers w) := by
  obtain ⟨leaves, hleaves, shows⟩ := exists_fillLeaves distinct (Chart.shows_blank w N.start)
  obtain ⟨chart, filled, shown⟩ := exists_foldlM_range_eq_ok (n := w.length - 1)
    (fun t (chart : Chart) => chart.Shows w N.start (N.toGrammar.Entered w (1 + t) 0)) shows
    fun t _ chart shown => exists_fillDiagonal distinct (Nat.lt_add_right t Nat.one_pos) shown
  -- the diagonals that were gone over are all there are
  refine ⟨chart, ?_, shown.congr fun i j _ hj A => and_iff_right (.inl (by omega))⟩
  unfold NormalGrammar.chart
  rw [hleaves]
  exact filled

end Distinct

/-- The verdict of a chart that shows what the grammar generates. -/
theorem accepts_iff_generates (shows : chart.Shows w N.start (N.toGrammar.Covers w)) :
    chart.accepts ↔ w ≠ [] ∧ N.toGrammar.Generates N.start w := by
  rw [shows.accepts_iff]
  exact and_congr_right fun h => covers_all_iff h

end NormalGrammar

namespace Grammar

open NormalGrammar

/-- **Charts are right.** For a grammar in normal form every word has a filled chart. Of all
places of the square it says which non-terminals generate the stretch of the word there, and it
accepts the words of the start symbol; the empty word is none of them. -/
theorem WellFormed.exists_chart_iff_generates {G : Grammar} (wf : G.WellFormed)
    {N : NormalGrammar} (read : ofGrammar G = .ok N) (w : List Name) :
    ∃ chart, N.chart w = .ok chart ∧
      (∀ i j, i < w.length → j < w.length → ∃ cell, chart.cell i j = .ok cell ∧
        ∀ A, A ∈ cell ↔ i ≤ j ∧ G.Generates A (stretch w i j)) ∧
      (chart.accepts ↔ w ≠ [] ∧ G.Generates G.start w) := by
  obtain rfl := wf.ofGrammar_eq_ok_iff.mp read
  obtain ⟨chart, filled, shows⟩ := exists_chart_shows wf.leftSides_nodup w
  exact ⟨chart, filled, shows.cell, accepts_iff_generates shows⟩

/-- The grammar of the words of some `a` and then as many `b`, in normal form. -/
def equals : NormalGrammar where
  start := .ofCons 'S' []
  terminals := [.ofCons 'a' [], .ofCons 'b' []]
  rules := [
    ⟨.ofCons 'S' [], [.pair (.ofCons 'A' []) (.ofCons 'B' []),
      .pair (.ofCons 'A' []) (.ofCons 'T' [])]⟩,
    ⟨.ofCons 'T' [], [.pair (.ofCons 'S' []) (.ofCons 'B' [])]⟩,
    ⟨.ofCons 'A' [], [.leaf (.ofCons 'a' [])]⟩,
    ⟨.ofCons 'B' [], [.leaf (.ofCons 'b' [])]⟩]

/-- The chart of `a b` for this grammar. -/
theorem equals_exists_chart :
    equals.toGrammar.WellFormed ∧ ofGrammar equals.toGrammar = .ok equals ∧
      ∃ chart, equals.chart [.ofCons 'a' [], .ofCons 'b' []] = .ok chart ∧
        (∀ i j, i < 2 → j < 2 → ∃ cell, chart.cell i j = .ok cell ∧ ∀ A, A ∈ cell ↔
          i ≤ j ∧ equals.toGrammar.Generates A (stretch [.ofCons 'a' [], .ofCons 'b' []] i j)) ∧
        (chart.accepts ↔ [Name.ofCons 'a' [], .ofCons 'b' []] ≠ [] ∧
          equals.toGrammar.Generates equals.start [.ofCons 'a' [], .ofCons 'b' []]) :=
  have wf : equals.toGrammar.WellFormed := wellFormed_iff_ofRows?_eq_ok.mpr rfl
  have read : ofGrammar equals.toGrammar = .ok equals := wf.ofGrammar_eq_ok_iff.mpr rfl
  ⟨wf, read, wf.exists_chart_iff_generates read _⟩

end Grammar

end ContextFree

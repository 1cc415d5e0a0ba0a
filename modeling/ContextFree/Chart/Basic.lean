import ContextFree.Failure
import ContextFree.Text.Box

/-!
# Charts

A chart for a word of `n` symbols is a square of `n` rows and `n` columns. The cell in row `i` and
column `j` is meant to hold the non-terminals that derive the stretch of the word from symbol `i`
up to and including symbol `j`; the cells below the diagonal stand for no stretch, and are not
shown. A cell lists its non-terminals in the order in which they were added, each once.

Rows and columns are counted from zero here and from one in what is printed. Going outside the
square is an `IndexFault`; the row is looked at before the column.
-/

namespace ContextFree

/-- A square of cells over a word, and the non-terminal that the whole word is asked for. -/
structure Chart where
  word : List Name
  start : Name
  cells : Array (Array (List Name))

namespace Chart

def blank (word : List Name) (start : Name) : Chart :=
  ⟨word, start, .replicate word.length (.replicate word.length [])⟩

def cell (chart : Chart) (i j : Nat) : Except IndexFault (List Name) :=
  match chart.cells[i]? with
  | none => .error ⟨chart.cells.size, i⟩
  | some row =>
    match row[j]? with
    | none => .error ⟨row.size, j⟩
    | some cell => .ok cell

/-- The chart with another cell at row `i` and column `j`, if there is such a place. -/
def put (chart : Chart) (i j : Nat) (cell : List Name) : Chart :=
  { chart with cells := chart.cells.modify i (·.setIfInBounds j cell) }

/-- The chart with some non-terminals added to the cell at row `i` and column `j`. -/
def add (chart : Chart) (i j : Nat) (names : List Name) : Except IndexFault Chart := do
  let cell ← chart.cell i j
  return chart.put i j (cell ++ names).eraseDups

def has (chart : Chart) (i j : Nat) (A : Name) : Except IndexFault Bool :=
  (chart.cell i j).map (·.contains A)

/-- Whether the start symbol is in the cell of the whole word. The empty word has no such cell. -/
def accepts (chart : Chart) : Bool :=
  (chart.cells[0]?.bind (·.back?)).any (·.contains chart.start)

def cellText (i j : Nat) (cell : List Name) : String :=
  if j < i then ""
  else s!"V({i + 1},{j + 1}) = " ++ enumerate ", " (cell.map (·.text))

def table (chart : Chart) : String :=
  let header := "" :: (List.range chart.cells.size).map fun j => s!"j = {j + 1}"
  let rows := chart.cells.toList.zipIdx.map fun (row, i) =>
    s!"i = {i + 1}" :: row.toList.zipIdx.map fun (cell, j) => cellText i j cell
  Text.boxed (header :: rows)

/-- The chart written out: the word, the table unless it is empty, and the verdict. -/
def display (chart : Chart) : String :=
  let word := spell (chart.word.map (·.text))
  let square := if chart.cells.size = 0 then "" else chart.table ++ "\n"
  let verdict := if chart.accepts then "accepted" else "rejected"
  s!"CYK table for \"{word}\":\n" ++ square ++
    s!"\"{word}\" is {verdict} from {chart.start.text}\n"

/-! ### Cells before and after -/

variable {chart : Chart} {i j : Nat}

theorem cell_eq_ok_iff {cell : List Name} :
    chart.cell i j = .ok cell ↔ ∃ row, chart.cells[i]? = some row ∧ row[j]? = some cell := by
  unfold Chart.cell
  split
  · next missing => simp [missing]
  · next row found =>
    split
    · next missing => simp [found, missing]
    · next cell there => simp [found, there]

theorem cell_blank {word : List Name} {start : Name} (hi : i < word.length)
    (hj : j < word.length) : (blank word start).cell i j = .ok [] := by
  rw [cell_eq_ok_iff]
  exact ⟨.replicate word.length [], by simp [blank, hi], by simp [hj]⟩

theorem cell_put_self {old cell : List Name} (h : chart.cell i j = .ok old) :
    (chart.put i j cell).cell i j = .ok cell := by
  obtain ⟨row, hrow, hcell⟩ := cell_eq_ok_iff.mp h
  obtain ⟨hj, _⟩ := Array.getElem?_eq_some_iff.mp hcell
  rw [cell_eq_ok_iff]
  refine ⟨row.setIfInBounds j cell, ?_, ?_⟩
  · simp [put, Array.getElem?_modify, hrow]
  · simp [hj]

theorem cell_put_of_ne {cell : List Name} {k l : Nat} (ne : (k, l) ≠ (i, j)) :
    (chart.put i j cell).cell k l = chart.cell k l := by
  unfold Chart.cell put
  simp only [Array.getElem?_modify, Array.size_modify]
  by_cases hk : i = k
  · subst hk
    have hl : j ≠ l := fun e => ne (by rw [e])
    cases chart.cells[i]? <;> simp [hl]
  · simp [hk]

/-- **Adding to a cell** succeeds if the cell can be read. -/
theorem add_of_cell {cell names : List Name} (h : chart.cell i j = .ok cell) :
    chart.add i j names = .ok (chart.put i j (cell ++ names).eraseDups) := by
  unfold add
  rw [h]
  rfl

end Chart

end ContextFree

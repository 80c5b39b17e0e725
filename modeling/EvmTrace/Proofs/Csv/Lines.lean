import EvmTrace.Document
import EvmTrace.Proofs.Csv.Tables
import EvmTrace.Proofs.Text.Lines

set_option autoImplicit false

namespace EvmTrace.Csv

open Text (lineFeeds lineFeedsIn lineFeeds_eq_zero_iff lineFeedsIn_eq_zero_iff EndsInLine)

theorem ne_break_of_plain {c : Char} (plain : isSpecial c = false) : c ≠ '\n' ∧ c ≠ '\r' := by
  constructor <;> rintro rfl <;> cases plain

theorem lineFeeds_of_plain {text : String} (plain : Plain text) : lineFeeds text = 0 := by
  rw [lineFeeds_eq_zero_iff]
  exact fun inside => (ne_break_of_plain (plain '\n' inside)).1 rfl

theorem count_doubled (text : List Char) :
    (text.flatMap doubled).count '\n' = text.count '\n' := by
  induction text with
  | nil => rfl
  | cons c rest ih =>
      have single : (doubled c).count '\n' = [c].count '\n' := by
        by_cases quote : c = '"'
        · subst quote
          rfl
        · rw [doubled, if_neg quote]
      rw [List.flatMap_cons, List.count_append, single, ih, ← List.count_append,
        List.singleton_append]

/-- Quotes hide no line feed. -/
theorem lineFeeds_cell (text : String) : lineFeeds (cell text) = lineFeeds text := by
  rcases cell_cases text with quoted | ⟨_, bare⟩
  · rw [quoted, lineFeeds, String.toList_ofList, List.count_cons_of_ne (by decide),
      List.count_append, count_doubled, lineFeeds]
    rfl
  · rw [bare]

theorem endsInLine_of_plain {text : String} (plain : Plain text) : EndsInLine text := by
  intro last
  exact (ne_break_of_plain (plain '\n' (List.mem_of_getLast? last))).1 rfl

theorem endsInLine_cell (text : String) : EndsInLine (cell text) := by
  rcases cell_cases text with quoted | ⟨plain, bare⟩
  · rw [quoted, EndsInLine, String.toList_ofList, ← List.cons_append, List.getLast?_concat]
    decide
  · rw [bare]
    exact endsInLine_of_plain plain

theorem line_ne_empty {cells : List String} (several : 1 < cells.length) : line cells ≠ "" := by
  match cells, several with
  | first :: second :: rest, _ => simp [line, String.intercalate_cons_cons]

theorem endsInLine_line {cells : List String} (ends : ∀ text ∈ cells, EndsInLine text) :
    EndsInLine (line cells) :=
  Text.endsInLine_intercalate (.inl (by simp [EndsInLine])) ends

theorem lineFeeds_line (cells : List String) : lineFeeds (line cells) = lineFeedsIn cells := by
  cases cells with
  | nil => rfl
  | cons first rest =>
      have comma : lineFeeds "," = 0 := rfl
      rw [line, Text.lineFeeds_intercalate, comma, Nat.mul_zero, Nat.add_zero]

theorem unbroken_line {cells : List String} (plain : ∀ text ∈ cells, Plain text) :
    ∀ c ∈ (line cells).toList, c ≠ '\n' ∧ c ≠ '\r' :=
  Text.forall_mem_intercalate (by simp)
    fun text inside c shown => ne_break_of_plain (plain text inside c shown)

/-- The line of a row of texts, with quotes where they are needed. -/
def cellsLine (texts : List String) : String := line (texts.map cell)

theorem endsInLine_cellsLine (texts : List String) : EndsInLine (cellsLine texts) :=
  endsInLine_line (List.forall_mem_map.mpr fun text _ => endsInLine_cell text)

theorem lineFeeds_cellsLine (texts : List String) :
    lineFeeds (cellsLine texts) = lineFeedsIn texts := by
  rw [cellsLine, lineFeeds_line]
  induction texts with
  | nil => rfl
  | cons text rest ih => rw [List.map_cons, lineFeedsIn, lineFeedsIn, lineFeeds_cell, ih]

namespace Layout

variable {α : Type} (layout : Layout α) (entries : List α)

theorem write_eq_intercalate :
    layout.write entries =
      "\n".intercalate
        (line layout.names :: entries.map fun entry => cellsLine (layout.texts entry)) := by
  rw [write, table, List.map_map]
  rfl

theorem line_names_ne_empty : line layout.names ≠ "" :=
  line_ne_empty layout.one_lt_length_names

theorem unbroken_line_names : ∀ c ∈ (line layout.names).toList, c ≠ '\n' ∧ c ≠ '\r' :=
  unbroken_line layout.plain_names

theorem cellsLine_ne_empty (entry : α) : cellsLine (layout.texts entry) ≠ "" := by
  apply line_ne_empty
  rw [List.length_map, layout.length_texts]
  exact layout.one_lt_length_names

/-- The first line of a table holds its column names. -/
theorem head?_lines_write :
    (Text.lines (layout.write entries)).head? = some (line layout.names) := by
  rw [write_eq_intercalate]
  exact Text.head?_lines layout.line_names_ne_empty layout.unbroken_line_names _

theorem endsInLine_write : EndsInLine (layout.write entries) := by
  rw [write_eq_intercalate]
  apply Text.endsInLine_intercalate
  · refine .inr (List.forall_mem_cons.mpr ⟨layout.line_names_ne_empty, ?_⟩)
    exact List.forall_mem_map.mpr fun entry _ => layout.cellsLine_ne_empty entry
  · refine List.forall_mem_cons.mpr ⟨?_, ?_⟩
    · exact endsInLine_line fun name inside =>
        endsInLine_of_plain (layout.plain_names name inside)
    · exact List.forall_mem_map.mpr fun entry _ => endsInLine_cellsLine (layout.texts entry)

theorem lineFeeds_write :
    lineFeeds (layout.write entries) =
      entries.length + lineFeedsIn (entries.flatMap layout.texts) := by
  have first : lineFeeds (line layout.names) = 0 := by
    rw [lineFeeds_eq_zero_iff]
    exact fun inside => (layout.unbroken_line_names '\n' inside).1 rfl
  have feed : lineFeeds "\n" = 1 := rfl
  have rows : lineFeedsIn (entries.map fun entry => cellsLine (layout.texts entry)) =
      lineFeedsIn (entries.flatMap layout.texts) := by
    have single : ∀ entry, lineFeedsIn [cellsLine (layout.texts entry)] =
        lineFeedsIn (layout.texts entry) :=
      fun entry => lineFeeds_cellsLine (layout.texts entry)
    rw [List.map_eq_flatMap, Text.lineFeedsIn_flatMap_congr single]
  rw [write_eq_intercalate, Text.lineFeeds_intercalate, lineFeedsIn, first, feed, rows,
    List.length_map]
  omega

/-- Below the column names each entry has a line, and one more for each line feed in its texts. -/
theorem rows_write :
    Document.rows (layout.write entries) =
      entries.length + lineFeedsIn (entries.flatMap layout.texts) := by
  have shown : layout.write entries ≠ "" := by
    rw [write_eq_intercalate]
    exact Text.intercalate_ne_empty layout.line_names_ne_empty _
  rw [Document.rows, Text.length_lines shown (layout.endsInLine_write entries), lineFeeds_write,
    Nat.add_sub_cancel]

theorem rows_write_of_plain (plain : ∀ entry, ∀ text ∈ layout.texts entry, Plain text) :
    Document.rows (layout.write entries) = entries.length := by
  have unbroken : lineFeedsIn (entries.flatMap layout.texts) = 0 := by
    rw [lineFeedsIn_eq_zero_iff, List.forall_mem_flatMap]
    intro entry _ text inside
    exact (lineFeeds_eq_zero_iff text).mp (lineFeeds_of_plain (plain entry text inside))
  rw [rows_write, unbroken, Nat.add_zero]

end Layout

theorem rows_calls (entries : List PlacedCall) :
    Document.rows (calls entries) = entries.length := by
  rw [← write_callLayout]
  exact callLayout.rows_write_of_plain entries plain_texts_callLayout

theorem rows_logs (entries : List TaggedLog) : Document.rows (logs entries) = entries.length := by
  rw [← write_logLayout]
  exact logLayout.rows_write_of_plain entries plain_texts_logLayout

theorem rows_transfers (entries : List Transfer) :
    Document.rows (transfers entries) = entries.length := by
  rw [← write_transferLayout]
  exact transferLayout.rows_write_of_plain entries plain_texts_transferLayout

/-- The texts of a step that may hold anything. -/
def freeTexts (step : Step) : List String := [step.opcode, step.output]

theorem lineFeedsIn_texts (step : Step) :
    lineFeedsIn (stepLayout.texts step) = lineFeedsIn (freeTexts step) := by
  have number : ∀ n : Nat, lineFeeds (toString n) = 0 := fun n =>
    lineFeeds_of_plain (plain_toString n)
  simp only [stepLayout, Layout.texts, List.map_cons, List.map_nil, freeTexts, lineFeedsIn, number,
    Nat.zero_add]

/-- The number of lines that steps take in their table. -/
def stepLines (entries : List Step) : Nat :=
  entries.length + lineFeedsIn (entries.flatMap freeTexts)

theorem stepLines_eq_length_iff (entries : List Step) :
    stepLines entries = entries.length ↔
      ∀ step ∈ entries, '\n' ∉ step.opcode.toList ∧ '\n' ∉ step.output.toList := by
  rw [stepLines, Nat.add_eq_left, lineFeedsIn_eq_zero_iff, List.forall_mem_flatMap]
  simp only [freeTexts, List.forall_mem_cons, List.not_mem_nil, false_imp_iff, implies_true,
    and_true]

theorem rows_steps (entries : List Step) : Document.rows (steps entries) = stepLines entries := by
  rw [← write_stepLayout, stepLines, ← Text.lineFeedsIn_flatMap_congr lineFeedsIn_texts]
  exact stepLayout.rows_write entries

end EvmTrace.Csv

namespace EvmTrace.Document

/-- The tables of a document that was made of a trace begin with their column names. -/
theorem badTables_ofTrace (now : String) (trace : Trace) : (ofTrace now trace).badTables = [] := by
  have steps := Csv.stepLayout.head?_lines_write trace.steps
  have calls := Csv.callLayout.head?_lines_write trace.calls
  have logs := Csv.logLayout.head?_lines_write trace.logs
  have transfers := Csv.transferLayout.head?_lines_write trace.transfers
  rw [Csv.write_stepLayout, Csv.names_stepLayout] at steps
  rw [Csv.write_callLayout, Csv.names_callLayout] at calls
  rw [Csv.write_logLayout, Csv.names_logLayout] at logs
  rw [Csv.write_transferLayout, Csv.names_transferLayout] at transfers
  simp [badTables, tables, ofTrace, steps, calls, logs, transfers]

end EvmTrace.Document

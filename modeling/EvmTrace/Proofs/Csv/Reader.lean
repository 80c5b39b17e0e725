import EvmTrace.Csv

/-!
Reading comma-separated values. Rows end with line feeds, of which the last may be missing, and
cells with commas. A cell whose first character is a quote goes on to the quote that is not doubled
and may hold commas and line breaks; no other cell holds a quote or a carriage return.

A table of cells is read as the texts that the cells were made of, whatever these hold.
-/

set_option autoImplicit false

namespace EvmTrace.Csv

/-- What is read of the cell that has begun, last character first. -/
inductive Mode where
  | plain (done : List Char)
  | quoted (done : List Char)
  /-- Behind a quote in a quoted cell, which ends the cell or is the first of two. -/
  | closed (done : List Char)

/-- The rows and the cells of the next row that are read so far, last ones first. -/
structure Reader where
  rows : List (List String)
  cells : List String
  mode : Mode

namespace Reader

def endCell (reader : Reader) (done : List Char) : Reader :=
  { reader with cells := String.ofList done.reverse :: reader.cells, mode := .plain [] }

def endRow (reader : Reader) (done : List Char) : Reader :=
  { rows := (String.ofList done.reverse :: reader.cells).reverse :: reader.rows, cells := []
    mode := .plain [] }

def step? (reader : Reader) (c : Char) : Option Reader :=
  match reader.mode, c with
  | .plain done, ',' => some (reader.endCell done)
  | .plain done, '\n' => some (reader.endRow done)
  | .plain [], '"' => some { reader with mode := .quoted [] }
  | .plain _, '"' => none
  | .plain _, '\r' => none
  | .plain done, c => some { reader with mode := .plain (c :: done) }
  | .quoted done, '"' => some { reader with mode := .closed done }
  | .quoted done, c => some { reader with mode := .quoted (c :: done) }
  | .closed done, '"' => some { reader with mode := .quoted ('"' :: done) }
  | .closed done, ',' => some (reader.endCell done)
  | .closed done, '\n' => some (reader.endRow done)
  | .closed _, _ => none

def run? : Reader → List Char → Option Reader
  | reader, [] => some reader
  | reader, c :: rest =>
    match reader.step? c with
    | none => none
    | some next => run? next rest

/-- The rows of the text that led to a reader, if it may end there. -/
def finish? (reader : Reader) : Option (List (List String)) :=
  match reader.mode with
  | .plain done =>
    if done.isEmpty && reader.cells.isEmpty then some reader.rows.reverse
    else some (reader.endRow done).rows.reverse
  | .quoted _ => none
  | .closed done => some (reader.endRow done).rows.reverse

theorem run?_append (reader : Reader) (front back : List Char) :
    reader.run? (front ++ back) = (reader.run? front).bind (run? · back) := by
  induction front generalizing reader with
  | nil => rfl
  | cons c rest ih =>
      simp only [List.cons_append, run?]
      cases reader.step? c with
      | none => rfl
      | some next => exact ih next

end Reader

def read? (text : String) : Option (List (List String)) :=
  (Reader.run? ⟨[], [], .plain []⟩ text.toList).bind Reader.finish?

/-- A text that is a cell as it stands. -/
def Plain (text : String) : Prop :=
  ∀ c ∈ text.toList, isSpecial c = false

theorem cell_of_plain {text : String} (plain : Plain text) : cell text = text := by
  have bare : text.toList.any isSpecial = false := by
    rw [List.any_eq_false]
    intro c inside
    simp [plain c inside]
  rw [cell, bare, if_neg Bool.false_ne_true]

theorem cell_cases (text : String) :
    cell text = String.ofList ('"' :: (text.toList.flatMap doubled ++ ['"'])) ∨
      Plain text ∧ cell text = text := by
  cases special : text.toList.any isSpecial with
  | true => exact .inl (by simp [cell, special])
  | false =>
      have plain : Plain text := by
        intro c inside
        simpa using List.any_eq_false.mp special c inside
      exact .inr ⟨plain, cell_of_plain plain⟩

namespace Reader

section AtEnd

variable {reader : Reader} {rows : List (List String)} {cells : List String} {text : String}

/-- A reader at the end of a cell with the given text, behind the given rows and cells. -/
def AtEnd (reader : Reader) (rows : List (List String)) (cells : List String) (text : String) :
    Prop :=
  reader = ⟨rows, cells, .plain text.toList.reverse⟩ ∨
    reader = ⟨rows, cells, .closed text.toList.reverse⟩

theorem AtEnd.comma (ends : reader.AtEnd rows cells text) :
    run? reader [','] = some ⟨rows, text :: cells, .plain []⟩ := by
  rcases ends with rfl | rfl <;> simp [run?, step?, endCell]

theorem AtEnd.lineFeed (ends : reader.AtEnd rows cells text) :
    run? reader ['\n'] = some ⟨(text :: cells).reverse :: rows, [], .plain []⟩ := by
  rcases ends with rfl | rfl <;> simp [run?, step?, endRow]

/-- A row that has begun with a cell ends where the text does. -/
theorem AtEnd.finish (ends : reader.AtEnd rows cells text)
    (begun : cells ≠ []) :
    reader.finish? = some ((text :: cells).reverse :: rows).reverse := by
  have some_cell : cells.isEmpty = false := by simpa using begun
  rcases ends with rfl | rfl <;> simp [finish?, endRow, some_cell]

end AtEnd

variable (rows : List (List String)) (cells : List String)

theorem run?_plain (text done : List Char) (plain : ∀ c ∈ text, isSpecial c = false) :
    run? ⟨rows, cells, .plain done⟩ text = some ⟨rows, cells, .plain (text.reverse ++ done)⟩ := by
  induction text generalizing done with
  | nil => rfl
  | cons c rest ih =>
      have ordinary := plain c List.mem_cons_self
      simp only [isSpecial, Bool.or_eq_false_iff, decide_eq_false_iff_not] at ordinary
      obtain ⟨⟨⟨comma, quote⟩, lineFeed⟩, carriageReturn⟩ := ordinary
      have taken : step? ⟨rows, cells, .plain done⟩ c =
          some ⟨rows, cells, .plain (c :: done)⟩ := by
        unfold step?
        split <;> simp_all
      have later := ih (c :: done) fun other inside => plain other (List.mem_cons_of_mem c inside)
      simp only [run?, taken, later, List.reverse_cons, List.append_assoc, List.singleton_append]

theorem run?_doubled (text done : List Char) :
    run? ⟨rows, cells, .quoted done⟩ (text.flatMap doubled) =
      some ⟨rows, cells, .quoted (text.reverse ++ done)⟩ := by
  induction text generalizing done with
  | nil => rfl
  | cons c rest ih =>
      have taken : run? ⟨rows, cells, .quoted done⟩ (doubled c) =
          some ⟨rows, cells, .quoted (c :: done)⟩ := by
        by_cases quote : c = '"'
        · subst quote
          rfl
        · simp [doubled, run?, step?, quote]
      rw [List.flatMap_cons, run?_append, taken, Option.bind_some, ih]
      simp

/-- A cell is read as the text that it was made of. -/
theorem run?_cell (text : String) :
    ∃ reader, run? ⟨rows, cells, .plain []⟩ (cell text).toList = some reader ∧
      reader.AtEnd rows cells text := by
  rcases cell_cases text with quoted | ⟨plain, bare⟩
  · have written : (cell text).toList = ['"'] ++ (text.toList.flatMap doubled ++ ['"']) := by
      simp [quoted]
    have opened : run? ⟨rows, cells, .plain []⟩ ['"'] = some ⟨rows, cells, .quoted []⟩ := rfl
    have body := run?_doubled rows cells text.toList []
    have closed : ∀ done, run? ⟨rows, cells, .quoted done⟩ ['"'] =
        some ⟨rows, cells, .closed done⟩ := fun _ => rfl
    rw [List.append_nil] at body
    refine ⟨⟨rows, cells, .closed text.toList.reverse⟩, ?_, .inr rfl⟩
    rw [written, run?_append, opened, Option.bind_some, run?_append, body, Option.bind_some,
      closed]
  · have read := run?_plain rows cells text.toList [] plain
    rw [List.append_nil] at read
    refine ⟨⟨rows, cells, .plain text.toList.reverse⟩, ?_, .inl rfl⟩
    rw [bare, read]

theorem run?_line (first : String) (rest : List String) :
    ∃ reader before last,
      run? ⟨rows, cells, .plain []⟩ (line ((first :: rest).map cell)).toList = some reader ∧
        reader.AtEnd rows before last ∧
        (last :: before).reverse = cells.reverse ++ first :: rest := by
  obtain ⟨reader, read, ends⟩ := run?_cell rows cells first
  induction rest generalizing first cells reader with
  | nil =>
      refine ⟨reader, cells, first, ?_, ends, by simp⟩
      rw [← read]
      simp [line]
  | cons second rest ih =>
      obtain ⟨next, readNext, endsNext⟩ :=
        run?_cell rows (first :: cells) second
      obtain ⟨last_reader, before, last, later, atEnd, whole⟩ :=
        ih (first :: cells) second next readNext endsNext
      refine ⟨last_reader, before, last, ?_, atEnd, by simpa using whole⟩
      have written : (line ((first :: second :: rest).map cell)).toList =
          (cell first).toList ++ ([','] ++ (line ((second :: rest).map cell)).toList) := by
        simp [line, String.intercalate_cons_cons]
      rw [written, run?_append, read, Option.bind_some, run?_append, ends.comma,
        Option.bind_some, later]

/-- The end of a row that has more than one cell stands behind some of them. -/
theorem run?_row (row : List String) (several : 1 < row.length) :
    ∃ reader before last,
      run? ⟨rows, [], .plain []⟩ (line (row.map cell)).toList = some reader ∧
        reader.AtEnd rows before last ∧ (last :: before).reverse = row ∧ before ≠ [] := by
  obtain ⟨first, rest, rfl⟩ := List.exists_cons_of_length_pos (Nat.lt_of_succ_lt several)
  obtain ⟨reader, before, last, read, ends, whole⟩ :=
    run?_line rows [] first rest
  rw [List.reverse_nil, List.nil_append] at whole
  refine ⟨reader, before, last, read, ends, whole, ?_⟩
  rintro rfl
  simp [← whole] at several

/-- A reader that has read rows, of which the last may still go on. -/
def Completes (reader : Reader) (all : List (List String)) : Prop :=
  ∃ rows cells text, reader.AtEnd rows cells text ∧ cells ≠ [] ∧
    ((text :: cells).reverse :: rows).reverse = all

theorem Completes.finish {reader : Reader} {all : List (List String)}
    (completes : reader.Completes all) : reader.finish? = some all := by
  obtain ⟨rows, cells, text, ends, begun, rfl⟩ := completes
  exact ends.finish begun

theorem run?_rows (first : List String) (rest : List (List String))
    (wide : ∀ row ∈ first :: rest, 1 < row.length) :
    ∃ reader,
      run? ⟨rows, [], .plain []⟩
          ("\n".intercalate ((first :: rest).map fun row => line (row.map cell))).toList =
        some reader ∧
      reader.Completes (rows.reverse ++ first :: rest) := by
  induction rest generalizing first rows with
  | nil =>
      obtain ⟨reader, before, last, read, ends, whole, begun⟩ :=
        run?_row rows first (wide first List.mem_cons_self)
      refine ⟨reader, ?_, rows, before, last, ends, begun, ?_⟩
      · simpa using read
      · rw [whole, List.reverse_cons]
  | cons second rest ih =>
      obtain ⟨reader, before, last, read, ends, whole, begun⟩ :=
        run?_row rows first (wide first List.mem_cons_self)
      obtain ⟨next, later, completes⟩ := ih (first :: rows) second
        fun row inside => wide row (List.mem_cons_of_mem first inside)
      have written :
          ("\n".intercalate
            ((first :: second :: rest).map fun row => line (row.map cell))).toList =
          (line (first.map cell)).toList ++ (['\n'] ++
            ("\n".intercalate
              ((second :: rest).map fun row => line (row.map cell))).toList) := by
        simp [String.intercalate_cons_cons]
      refine ⟨next, ?_, by simpa using completes⟩
      rw [written, run?_append, read, Option.bind_some, run?_append, ends.lineFeed,
        Option.bind_some, whole, later]

end Reader

/-- What a table is made of is read of it, if its rows have more than one cell. -/
theorem read?_table (columns : List String) (rows : List (List String))
    (wide : ∀ row ∈ columns :: rows, 1 < row.length) :
    read? (table (columns.map cell) (rows.map fun row => row.map cell)) =
      some (columns :: rows) := by
  obtain ⟨reader, read, completes⟩ := Reader.run?_rows [] columns rows wide
  have written : table (columns.map cell) (rows.map fun row => row.map cell) =
      "\n".intercalate ((columns :: rows).map fun row => line (row.map cell)) := by
    simp [table, Function.comp_def]
  rw [read?, written, read, Option.bind_some, completes.finish, List.reverse_nil, List.nil_append]

example : read? "a,\n\"x\ny\",\"\"\"\"" = some [["a", ""], ["x\ny", "\""]] := by decide +kernel

end EvmTrace.Csv

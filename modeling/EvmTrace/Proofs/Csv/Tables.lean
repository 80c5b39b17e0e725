import EvmTrace.Proofs.Bytes.Hex
import EvmTrace.Proofs.Csv.Reader
import EvmTrace.Proofs.Text.Joined

/-!
The tables of a trace, read cell by cell. A table is laid out by its columns, each with a name and
with a text for every entry, and these texts are put in quotes where they need them. Numbers, byte
strings, paths, topics and names hold nothing that needs quotes, so that their cells are written as
they stand.
-/

set_option autoImplicit false

namespace EvmTrace.Csv

theorem plain_empty : Plain "" := by
  simp [Plain]

theorem Plain.append {front back : String} (plain_front : Plain front) (plain_back : Plain back) :
    Plain (front ++ back) := by
  intro c inside
  rw [String.toList_append, List.mem_append] at inside
  rcases inside with inside | inside
  · exact plain_front c inside
  · exact plain_back c inside

theorem isSpecial_of_isDigit {c : Char} (digit : c.isDigit = true) : isSpecial c = false := by
  simp only [isSpecial, Bool.or_eq_false_iff, decide_eq_false_iff_not]
  refine ⟨⟨⟨?_, ?_⟩, ?_⟩, ?_⟩ <;> rintro rfl <;> cases digit

theorem plain_toString (n : Nat) : Plain (toString n) := by
  intro c inside
  rw [Nat.toString_eq_ofList_toDigits, String.toList_ofList] at inside
  exact isSpecial_of_isDigit (Nat.isDigit_of_mem_toDigits (by decide) (by decide) inside)

theorem plain_hex (bytes : Bytes) : Plain (Hex.text bytes) :=
  Hex.forall_mem_text (by decide) (by decide) bytes

theorem plain_path (path : CallPath) : Plain path.text := by
  apply Text.forall_mem_intercalate
  · simp [isSpecial]
  · intro part inside
    obtain ⟨ordinal, _, rfl⟩ := List.mem_map.mp inside
    exact plain_toString ordinal

theorem plain_topics (topics : List Hash) : Plain (topicsCell topics) := by
  have opening : Plain "[" := by simp [Plain, isSpecial]
  have blank : Plain " " := by simp [Plain, isSpecial]
  have closing : Plain "]" := by simp [Plain, isSpecial]
  have parts : ∀ part ∈ topics.map fixed, Plain part := by
    intro part inside
    obtain ⟨topic, _, rfl⟩ := List.mem_map.mp inside
    exact plain_hex topic.bytes
  exact (opening.append (Text.forall_mem_intercalate blank parts)).append closing

theorem plain_getD {α : Type} (write : α → String) (value : Option α)
    (plain : ∀ a, Plain (write a)) : Plain ((value.map write).getD "") := by
  cases value with
  | none => exact plain_empty
  | some a => exact plain a

theorem plain_kind (kind : CallKind) : Plain kind.name := by
  cases kind <;> simp [CallKind.name, Plain, isSpecial]

theorem plain_standard (standard : TokenStandard) : Plain standard.name := by
  cases standard <;> simp [TokenStandard.name, Plain, isSpecial]

theorem plain_function (function : TokenFunction) : Plain function.name := by
  cases function <;> simp [TokenFunction.name, Plain, isSpecial]

theorem plain_transferKind (kind : TransferKind) : Plain kind.name := by
  cases kind <;> simp [TransferKind.name, Plain, isSpecial]

theorem map_cell_of_plain {texts : List String} (plain : ∀ text ∈ texts, Plain text) :
    texts.map cell = texts := by
  have same : ∀ text ∈ texts, cell text = id text :=
    fun text inside => cell_of_plain (plain text inside)
  rw [List.map_congr_left same, List.map_id]

theorem plain_of_all {texts : List String}
    (all : (texts.all fun text => !text.toList.any isSpecial) = true) :
    ∀ text ∈ texts, Plain text := by
  intro text inside c within
  have free := List.all_eq_true.mp all text inside
  rw [Bool.not_eq_true', List.any_eq_false] at free
  exact Bool.eq_false_iff.mpr (free c within)

/-- A column: its name, and its text for each entry. -/
structure Column (α : Type) where
  name : String
  text : α → String

/-- The way entries are laid out in a table. -/
structure Layout (α : Type) where
  columns : List (Column α)
  /-- A row of one empty cell could not be told from an empty line. -/
  several : 1 < columns.length
  plain_names : ∀ name ∈ columns.map Column.name, Plain name

/-- Whether a text is the table of the given rows, each with a text for each column. -/
def IsTable (text : String) (columns : List String) (rows : List (List String)) : Prop :=
  read? text = some (columns :: rows) ∧ ∀ row ∈ rows, row.length = columns.length

namespace Layout

variable {α : Type} (layout : Layout α)

def names : List String := layout.columns.map Column.name

/-- The texts of an entry, one for each column. -/
def texts (entry : α) : List String := layout.columns.map fun column => column.text entry

theorem length_names : layout.names.length = layout.columns.length :=
  List.length_map _

theorem length_texts (entry : α) : (layout.texts entry).length = layout.names.length := by
  rw [texts, names, List.length_map, List.length_map]

variable (entries : List α)

/-- The table of the given entries, with quotes where they are needed. -/
def write : String :=
  table layout.names (entries.map fun entry => (layout.texts entry).map cell)

theorem write_eq_table {columns : List String} {cells : α → List String}
    (named : layout.names = columns)
    (shown : ∀ entry, (layout.texts entry).map cell = cells entry) :
    layout.write entries = table columns (entries.map cells) := by
  rw [write, named, funext shown]

theorem write_eq_table_of_plain {columns : List String} {cells : α → List String}
    (named : layout.names = columns) (plain : ∀ entry, ∀ text ∈ layout.texts entry, Plain text)
    (shown : ∀ entry, layout.texts entry = cells entry) :
    layout.write entries = table columns (entries.map cells) := by
  apply layout.write_eq_table entries named
  intro entry
  rw [map_cell_of_plain (plain entry), shown entry]

theorem one_lt_length_names : 1 < layout.names.length := by
  rw [length_names]
  exact layout.several

/-- A table is read as it was laid out, whatever the texts of its entries hold. -/
theorem isTable_write :
    IsTable (layout.write entries) layout.names (entries.map layout.texts) := by
  have lengths : ∀ row ∈ entries.map layout.texts, row.length = layout.names.length :=
    List.forall_mem_map.mpr fun entry _ => layout.length_texts entry
  have wide : ∀ row ∈ layout.names :: entries.map layout.texts, 1 < row.length := by
    refine List.forall_mem_cons.mpr ⟨layout.one_lt_length_names, ?_⟩
    intro row inside
    rw [lengths row inside]
    exact layout.one_lt_length_names
  have bare : layout.names.map cell = layout.names := map_cell_of_plain layout.plain_names
  have read := read?_table layout.names (entries.map layout.texts) wide
  rw [bare, List.map_map] at read
  exact ⟨read, lengths⟩

end Layout

def hexPair (byte : UInt8) : List Char :=
  (Nat.toDigits 16 byte.toNat).leftpad 2 '0'

/-- The bytes in pairs of hexadecimal digits behind `0x`. -/
def hexText (bytes : Bytes) : String :=
  "0x" ++ String.ofList (bytes.flatMap hexPair)

def ordinalsText (ordinals : List Nat) : String :=
  "_".intercalate (ordinals.map toString)

/-- The topics between brackets, with spaces between them. -/
def topicsText (topics : List Hash) : String :=
  "[" ++ " ".intercalate (topics.map fun topic => hexText topic.bytes) ++ "]"

/-- The text of a value that may be missing, empty if it is. -/
def optionalText {α : Type} (write : α → String) : Option α → String
  | none => ""
  | some value => write value

def stepLayout : Layout Step where
  columns :=
    [⟨"pc", fun step => toString step.pc.toNat⟩,
     ⟨"depth", fun step => toString step.depth⟩,
     ⟨"opcode", fun step => step.opcode⟩,
     ⟨"gas", fun step => toString step.gas.toNat⟩,
     ⟨"cost", fun step => toString step.cost.toNat⟩,
     ⟨"output", fun step => step.output⟩]
  several := by decide
  plain_names := plain_of_all (by decide +kernel)

def callLayout : Layout PlacedCall where
  columns :=
    [⟨"index", fun placed => toString placed.call.index⟩,
     ⟨"callType", fun placed => placed.call.kind.name⟩,
     ⟨"depth", fun placed => toString placed.call.depth⟩,
     ⟨"from", fun placed => hexText placed.call.sender.bytes⟩,
     ⟨"to", fun placed => hexText placed.call.recipient.bytes⟩,
     ⟨"value", fun placed => toString placed.call.value.toNat⟩,
     ⟨"gas", fun placed => toString placed.call.gas.toNat⟩,
     ⟨"input", fun placed => hexText placed.call.input⟩,
     ⟨"output", fun placed => hexText placed.call.output⟩,
     ⟨"callStackPath", fun placed => ordinalsText placed.path⟩,
     ⟨"traceAddress", fun placed => ordinalsText (placed.path.map fun ordinal => ordinal - 1)⟩]
  several := by decide
  plain_names := plain_of_all (by decide +kernel)

def logLayout : Layout TaggedLog where
  columns :=
    [⟨"address", fun log => hexText log.address.bytes⟩,
     ⟨"topics", fun log => topicsText log.topics⟩,
     ⟨"data", fun log => hexText log.data⟩,
     ⟨"type", fun log => optionalText TokenStandard.name log.standard⟩,
     ⟨"function", fun log => optionalText TokenFunction.name log.function⟩]
  several := by decide
  plain_names := plain_of_all (by decide +kernel)

def transferLayout : Layout Transfer where
  columns :=
    [⟨"from", fun transfer => hexText transfer.sender.bytes⟩,
     ⟨"to", fun transfer => hexText transfer.recipient.bytes⟩,
     ⟨"tokenAddress",
       fun transfer => optionalText (fun token => hexText token.bytes) transfer.token⟩,
     ⟨"value", fun transfer => toString transfer.value.toNat⟩,
     ⟨"depth", fun transfer => toString transfer.depth⟩,
     ⟨"traceIndex", fun transfer => toString transfer.callIndex⟩,
     ⟨"callPath", fun transfer => ordinalsText transfer.path⟩,
     ⟨"type", fun transfer => transfer.kind.name⟩]
  several := by decide
  plain_names := plain_of_all (by decide +kernel)

theorem names_stepLayout : stepLayout.names = stepColumns := rfl

theorem names_callLayout : callLayout.names = callColumns := rfl

theorem names_logLayout : logLayout.names = logColumns := rfl

theorem names_transferLayout : transferLayout.names = transferColumns := rfl

theorem hexPair_eq_digits (byte : UInt8) : hexPair byte = Hex.digits byte := by
  have all : ∀ n < 256, (Nat.toDigits 16 n).leftpad 2 '0' =
      [Nat.digitChar (n / 16), Nat.digitChar (n % 16)] := by decide +kernel
  exact all byte.toNat byte.toNat_lt

theorem hexText_eq_text (bytes : Bytes) : hexText bytes = Hex.text bytes := by
  have pairs : hexPair = Hex.digits := funext hexPair_eq_digits
  rw [hexText, pairs, Hex.text, ← String.toList_inj]
  simp [Hex.body]

theorem topicsText_eq_cell (topics : List Hash) : topicsText topics = topicsCell topics := by
  simp only [topicsText, topicsCell, hexText_eq_text]
  rfl

theorem optionalText_eq_getD {α : Type} (write : α → String) (value : Option α) :
    optionalText write value = (value.map write).getD "" := by
  cases value <;> rfl

theorem map_cell_texts_stepLayout (step : Step) :
    (stepLayout.texts step).map cell = stepCells step := by
  simp only [stepLayout, Layout.texts, stepCells, List.map_cons, List.map_nil,
    cell_of_plain (plain_toString _)]

theorem texts_callLayout (placed : PlacedCall) : callLayout.texts placed = callCells placed := by
  simp only [callLayout, Layout.texts, callCells, List.map_cons, List.map_nil, hexText_eq_text]
  rfl

theorem texts_logLayout (log : TaggedLog) : logLayout.texts log = logCells log := by
  simp only [logLayout, Layout.texts, logCells, List.map_cons, List.map_nil, hexText_eq_text,
    topicsText_eq_cell, optionalText_eq_getD]
  rfl

theorem texts_transferLayout (transfer : Transfer) :
    transferLayout.texts transfer = transferCells transfer := by
  simp only [transferLayout, Layout.texts, transferCells, List.map_cons, List.map_nil,
    hexText_eq_text, optionalText_eq_getD]
  rfl

theorem plain_texts_callLayout (placed : PlacedCall) :
    ∀ text ∈ callLayout.texts placed, Plain text := by
  simp only [texts_callLayout, callCells, List.forall_mem_cons]
  exact ⟨plain_toString _, plain_kind _, plain_toString _, plain_hex _, plain_hex _,
    plain_toString _, plain_toString _, plain_hex _, plain_hex _, plain_path _, plain_path _,
    nofun⟩

theorem plain_texts_logLayout (log : TaggedLog) : ∀ text ∈ logLayout.texts log, Plain text := by
  simp only [texts_logLayout, logCells, List.forall_mem_cons]
  exact ⟨plain_hex _, plain_topics _, plain_hex _, plain_getD _ _ plain_standard,
    plain_getD _ _ plain_function, nofun⟩

theorem plain_texts_transferLayout (transfer : Transfer) :
    ∀ text ∈ transferLayout.texts transfer, Plain text := by
  simp only [texts_transferLayout, transferCells, List.forall_mem_cons]
  exact ⟨plain_hex _, plain_hex _, plain_getD _ _ fun token => plain_hex token.bytes,
    plain_toString _, plain_toString _, plain_toString _, plain_path _, plain_transferKind _,
    nofun⟩

theorem write_stepLayout (entries : List Step) : stepLayout.write entries = steps entries :=
  stepLayout.write_eq_table entries names_stepLayout map_cell_texts_stepLayout

theorem write_callLayout (entries : List PlacedCall) : callLayout.write entries = calls entries :=
  callLayout.write_eq_table_of_plain entries names_callLayout plain_texts_callLayout
    texts_callLayout

theorem write_logLayout (entries : List TaggedLog) : logLayout.write entries = logs entries :=
  logLayout.write_eq_table_of_plain entries names_logLayout plain_texts_logLayout texts_logLayout

theorem write_transferLayout (entries : List Transfer) :
    transferLayout.write entries = transfers entries :=
  transferLayout.write_eq_table_of_plain entries names_transferLayout plain_texts_transferLayout
    texts_transferLayout

end EvmTrace.Csv

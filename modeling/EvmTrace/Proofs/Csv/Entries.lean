import EvmTrace.Proofs.Csv.Tables
import EvmTrace.Proofs.Text.Joined

set_option autoImplicit false

namespace EvmTrace.Csv

def bytes? (text : String) : Option Bytes :=
  (Hex.read (Text.encode text)).toOption

def fixed? (size : Nat) (text : String) : Option (FixedBytes size) :=
  (Hex.readFixed size (Text.encode text)).toOption

/-- The number of a cell that holds decimal digits only. -/
def number? (text : String) : Option Nat :=
  if text ≠ "" ∧ text.toList.all Char.isDigit then some (Nat.ofDigitChars 10 text.toList 0)
  else none

def uint64? (text : String) : Option UInt64 :=
  (number? text).map UInt64.ofNat

def word? (text : String) : Option Word :=
  (number? text).map (BitVec.ofNat 256)

/-- The parts of a cell, each read on its own; an empty cell has none. -/
def parts? {α : Type} (separator : Char) (read : String → Option α) (text : String) :
    Option (List α) :=
  if text = "" then some [] else (Text.split separator text).mapM read

/-- What a cell holds unless it is empty. -/
def optional? {α : Type} (read : String → Option α) (text : String) : Option (Option α) :=
  if text = "" then some none else (read text).map some

def path? (text : String) : Option CallPath :=
  parts? '_' number? text

def topics? (text : String) : Option (List Hash) :=
  match text.toList with
  | '[' :: rest => parts? ' ' (fixed? 32) (String.ofList rest.dropLast)
  | _ => none

/-- The value that has the given name. -/
def named? {α : Type} (values : List α) (name : α → String) (text : String) : Option α :=
  values.find? fun value => name value = text

theorem bytes?_text (bytes : Bytes) : bytes? (Hex.text bytes) = some bytes := by
  rw [bytes?, Hex.read_text]
  rfl

theorem fixed?_fixed {size : Nat} (b : FixedBytes size) : fixed? size (fixed b) = some b := by
  rw [fixed?, fixed, Hex.readFixed_text]
  rfl

theorem toString_ne_empty (n : Nat) : toString n ≠ "" :=
  Nat.repr_ne_empty

theorem number?_toString (n : Nat) : number? (toString n) = some n := by
  have digits : (toString n).toList = Nat.toDigits 10 n := by
    rw [Nat.toString_eq_ofList_toDigits, String.toList_ofList]
  have decimal : (Nat.toDigits 10 n).all Char.isDigit = true := by
    rw [List.all_eq_true]
    intro c inside
    exact Nat.isDigit_of_mem_toDigits (by decide) (by decide) inside
  rw [number?, digits, if_pos ⟨toString_ne_empty n, decimal⟩, Nat.ofDigitChars_ten_toDigits]

theorem uint64?_toString (word : UInt64) : uint64? (toString word.toNat) = some word := by
  rw [uint64?, number?_toString, Option.map_some, UInt64.ofNat_toNat]

theorem word?_decimal (word : Word) : word? word.decimal = some word := by
  rw [word?, Word.decimal, number?_toString, Option.map_some, BitVec.ofNat_toNat,
    BitVec.setWidth_eq]

theorem optional?_getD {α : Type} {read : String → Option α} {write : α → String}
    (back : ∀ a, read (write a) = some a) (shown : ∀ a, write a ≠ "") (value : Option α) :
    optional? read ((value.map write).getD "") = some value := by
  cases value with
  | none => rfl
  | some a => simp [optional?, shown a, back a]

theorem parts?_intercalate {α : Type} {separator : Char} {divider : String}
    {read : String → Option α} {write : α → String} (single : divider.toList = [separator])
    (back : ∀ a, read (write a) = some a) (shown : ∀ a, write a ≠ "")
    (free : ∀ a, separator ∉ (write a).toList) (values : List α) :
    parts? separator read (divider.intercalate (values.map write)) = some values := by
  cases values with
  | nil => rfl
  | cons first rest =>
      have filled : divider.intercalate ((first :: rest).map write) ≠ "" :=
        Text.intercalate_ne_empty (shown first) (rest.map write)
      have bare : ∀ part ∈ (first :: rest).map write, separator ∉ part.toList := by
        intro part inside
        obtain ⟨value, _, rfl⟩ := List.mem_map.mp inside
        exact free value
      have some_part : (first :: rest).map write ≠ [] := List.cons_ne_nil _ _
      rw [parts?, if_neg filled, Text.split_intercalate single some_part bare,
        mapM_inverse back]

theorem path?_text (path : CallPath) : path? path.text = some path := by
  have free : ∀ n : Nat, '_' ∉ (toString n).toList := by
    intro n inside
    rw [Nat.toString_eq_ofList_toDigits, String.toList_ofList] at inside
    exact Nat.underscore_not_in_toDigits inside
  exact parts?_intercalate rfl number?_toString toString_ne_empty free path

theorem fixed_ne_empty {size : Nat} (b : FixedBytes size) : fixed b ≠ "" := by
  simp [fixed, Hex.text]

theorem topics?_topicsCell (topics : List Hash) : topics? (topicsCell topics) = some topics := by
  have free : ∀ topic : Hash, ' ' ∉ (fixed topic).toList := by
    intro topic inside
    exact Hex.forall_mem_text (p := (· ≠ ' ')) (by decide) (by decide) topic.bytes ' ' inside rfl
  have single : (" " : String).toList = [' '] := rfl
  have inner := parts?_intercalate single fixed?_fixed fixed_ne_empty free topics
  have written : (topicsCell topics).toList =
      '[' :: ((" ".intercalate (topics.map fixed)).toList ++ [']']) := by
    simp [topicsCell]
  rw [topics?, written]
  simp only [List.dropLast_concat, String.ofList_toList, inner]

theorem named?_kind (kind : CallKind) :
    named? CallKind.all CallKind.name kind.name = some kind := by
  cases kind <;> decide

theorem named?_standard (standard : TokenStandard) :
    named? TokenStandard.all TokenStandard.name standard.name = some standard := by
  cases standard <;> decide

theorem named?_function (function : TokenFunction) :
    named? TokenFunction.all TokenFunction.name function.name = some function := by
  cases function <;> decide

theorem named?_transferKind (kind : TransferKind) :
    named? TransferKind.all TransferKind.name kind.name = some kind := by
  cases kind <;> decide

def step? : List String → Option Step
  | [pc, depth, opcode, gas, cost, output] => do
    some { pc := ← uint64? pc, depth := ← number? depth, opcode, gas := ← uint64? gas
           cost := ← uint64? cost, output }
  | _ => none

/-- The call of a row. Its last cell repeats the path. -/
def call? : List String → Option PlacedCall
  | [index, kind, depth, sender, recipient, value, gas, input, output, path, _] => do
    let call : Call :=
      { index := ← number? index, kind := ← named? CallKind.all CallKind.name kind
        depth := ← number? depth, sender := ← fixed? 20 sender
        recipient := ← fixed? 20 recipient, value := ← word? value, gas := ← uint64? gas
        input := ← bytes? input, output := ← bytes? output }
    some { call, path := ← path? path }
  | _ => none

def log? : List String → Option TaggedLog
  | [address, topics, data, standard, function] => do
    some { address := ← fixed? 20 address, topics := ← topics? topics, data := ← bytes? data
           standard := ← optional? (named? TokenStandard.all TokenStandard.name) standard
           function := ← optional? (named? TokenFunction.all TokenFunction.name) function }
  | _ => none

def transfer? : List String → Option Transfer
  | [sender, recipient, token, value, depth, callIndex, path, kind] => do
    some { sender := ← fixed? 20 sender, recipient := ← fixed? 20 recipient
           token := ← optional? (fixed? 20) token, value := ← word? value
           depth := ← number? depth, callIndex := ← number? callIndex, path := ← path? path
           kind := ← named? TransferKind.all TransferKind.name kind }
  | _ => none

theorem step?_texts (step : Step) : step? (stepLayout.texts step) = some step := by
  simp only [step?, stepLayout, Layout.texts, List.map_cons, List.map_nil, uint64?_toString,
    number?_toString, Option.bind_eq_bind, Option.bind_some]

theorem call?_texts (placed : PlacedCall) : call? (callLayout.texts placed) = some placed := by
  simp only [texts_callLayout, call?, callCells, uint64?_toString, number?_toString, named?_kind,
    fixed?_fixed, word?_decimal, bytes?_text, path?_text, Option.bind_eq_bind, Option.bind_some]

theorem log?_texts (log : TaggedLog) : log? (logLayout.texts log) = some log := by
  have standard_shown : ∀ standard : TokenStandard, standard.name ≠ "" := by
    intro standard
    cases standard <;> decide
  have function_shown : ∀ function : TokenFunction, function.name ≠ "" := by
    intro function
    cases function <;> decide
  have standard := optional?_getD named?_standard standard_shown log.standard
  have function := optional?_getD named?_function function_shown log.function
  simp only [texts_logLayout, log?, logCells, fixed?_fixed, topics?_topicsCell, bytes?_text,
    standard, function, Option.bind_eq_bind, Option.bind_some]

theorem transfer?_texts (transfer : Transfer) :
    transfer? (transferLayout.texts transfer) = some transfer := by
  have token := optional?_getD fixed?_fixed fixed_ne_empty transfer.token
  simp only [texts_transferLayout, transfer?, transferCells, fixed?_fixed, token, word?_decimal,
    number?_toString, path?_text, named?_transferKind, Option.bind_eq_bind, Option.bind_some]

/-- The entries of a table with the given columns, each read from its row. -/
def entries? {α : Type} (columns : List String) (read : List String → Option α) (text : String) :
    Option (List α) :=
  match read? text with
  | some (first :: rows) => if first = columns then rows.mapM read else none
  | _ => none

/-- A table shows its entries, and they are recovered from it. -/
theorem Layout.read_back {α : Type} (layout : Layout α) {table : List α → String}
    (written : ∀ entries, layout.write entries = table entries) {read : List String → Option α}
    (back : ∀ entry, read (layout.texts entry) = some entry) (entries : List α) :
    IsTable (table entries) layout.names (entries.map layout.texts) ∧
      entries? layout.names read (table entries) = some entries := by
  have shown := layout.isTable_write entries
  rw [written] at shown
  refine ⟨shown, ?_⟩
  simp only [entries?, shown.1, ↓reduceIte, mapM_inverse back]

theorem entries?_steps (entries : List Step) :
    entries? stepColumns step? (steps entries) = some entries :=
  (stepLayout.read_back write_stepLayout step?_texts entries).2

theorem entries?_calls (entries : List PlacedCall) :
    entries? callColumns call? (calls entries) = some entries :=
  (callLayout.read_back write_callLayout call?_texts entries).2

theorem entries?_logs (entries : List TaggedLog) :
    entries? logColumns log? (logs entries) = some entries :=
  (logLayout.read_back write_logLayout log?_texts entries).2

theorem entries?_transfers (entries : List Transfer) :
    entries? transferColumns transfer? (transfers entries) = some entries :=
  (transferLayout.read_back write_transferLayout transfer?_texts entries).2

/--
A reader of comma-separated values finds the names of the columns in the first row of each table,
and in a row for each entry the texts that the columns have for its fields. The entries are
recovered from their rows.
-/
theorem tables_are_read_entry_by_entry :
    (stepLayout.names.length = 6 ∧ ∀ entries : List Step,
      IsTable (steps entries) stepLayout.names (entries.map stepLayout.texts) ∧
        entries? stepLayout.names step? (steps entries) = some entries) ∧
    (callLayout.names.length = 11 ∧ ∀ entries : List PlacedCall,
      IsTable (calls entries) callLayout.names (entries.map callLayout.texts) ∧
        entries? callLayout.names call? (calls entries) = some entries) ∧
    (logLayout.names.length = 5 ∧ ∀ entries : List TaggedLog,
      IsTable (logs entries) logLayout.names (entries.map logLayout.texts) ∧
        entries? logLayout.names log? (logs entries) = some entries) ∧
    (transferLayout.names.length = 8 ∧ ∀ entries : List Transfer,
      IsTable (transfers entries) transferLayout.names (entries.map transferLayout.texts) ∧
        entries? transferLayout.names transfer? (transfers entries) = some entries) := by
  refine ⟨⟨rfl, ?_⟩, ⟨rfl, ?_⟩, ⟨rfl, ?_⟩, ⟨rfl, ?_⟩⟩
  · exact stepLayout.read_back write_stepLayout step?_texts
  · exact callLayout.read_back write_callLayout call?_texts
  · exact logLayout.read_back write_logLayout log?_texts
  · exact transferLayout.read_back write_transferLayout transfer?_texts

end EvmTrace.Csv

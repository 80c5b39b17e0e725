import EvmTrace.Csv
import EvmTrace.Decode.Shape
import EvmTrace.Text

set_option autoImplicit false

namespace EvmTrace

/-- A kept trace. -/
structure Document where
  /-- The version of this form. -/
  version : String
  block : String
  hash : String
  sender : String
  /-- Empty if the transaction creates a contract. -/
  recipient : String
  value : String
  gasPrice : String
  gasUsed : String
  steps : String
  calls : String
  logs : String
  transfers : String
  /-- The time at which the document was made. -/
  generatedAt : String
deriving DecidableEq

namespace Document

def currentVersion : String := "1.0.0"

def ofTrace (now : String) (trace : Trace) : Document :=
  { version := currentVersion
    block := toString trace.metadata.block.toNat
    hash := Hex.text trace.metadata.hash.bytes
    sender := Hex.text trace.metadata.sender.bytes
    recipient := (trace.metadata.recipient.map fun account => Hex.text account.bytes).getD ""
    value := trace.metadata.value.decimal
    gasPrice := trace.metadata.gasPrice.decimal
    gasUsed := toString trace.metadata.gasUsed.toNat
    steps := Csv.steps trace.steps
    calls := Csv.calls trace.calls
    logs := Csv.logs trace.logs
    transfers := Csv.transfers trace.transfers
    generatedAt := now }

def fieldNames : List String :=
  ["version", "block", "tx", "from", "to", "value", "gas_price", "gas_used", "optrace",
   "functrace", "eventtrace", "transfertrace", "generated_at"]

def fieldTexts (document : Document) : List String :=
  [document.version, document.block, document.hash, document.sender, document.recipient,
   document.value, document.gasPrice, document.gasUsed, document.steps, document.calls,
   document.logs, document.transfers, document.generatedAt]

/-- The document whose fields have the given texts in their order. -/
def ofTexts? : List String → Option Document
  | [version, block, hash, sender, recipient, value, gasPrice, gasUsed, steps, calls, logs,
     transfers, generatedAt] =>
    some { version, block, hash, sender, recipient, value, gasPrice, gasUsed, steps, calls, logs,
           transfers, generatedAt }
  | _ => none

def shape : Shape Document :=
  Shape.make Document.mk
    |>.field (.required "version" Decode.text)
    |>.field (.required "block" Decode.text)
    |>.field (.required "tx" Decode.text)
    |>.field (.required "from" Decode.text)
    |>.field (.required "to" Decode.text)
    |>.field (.required "value" Decode.text)
    |>.field (.required "gas_price" Decode.text)
    |>.field (.required "gas_used" Decode.text)
    |>.field (.required "optrace" Decode.text)
    |>.field (.required "functrace" Decode.text)
    |>.field (.required "eventtrace" Decode.text)
    |>.field (.required "transfertrace" Decode.text)
    |>.field (.required "generated_at" Decode.text)

def members (document : Document) : List (String × Json) :=
  fieldNames.zip (document.fieldTexts.map .string)

def toJson (document : Document) : Json := .object document.members

/-- The tables of a document, with the names of their fields and the lines they begin with. -/
def tables (document : Document) : List (String × String × String) :=
  [("optrace", document.steps, Csv.line Csv.stepColumns),
   ("functrace", document.calls, Csv.line Csv.callColumns),
   ("eventtrace", document.logs, Csv.line Csv.logColumns),
   ("transfertrace", document.transfers, Csv.line Csv.transferColumns)]

/-- The fields whose tables do not begin with their column names. -/
def badTables (document : Document) : List String :=
  (document.tables.filter fun table => (Text.lines table.2.1).head? ≠ some table.2.2).map (·.1)

/-- The number of lines of a table below its column names. -/
def rows (table : String) : Nat :=
  (Text.lines table).length - 1

/-- Two documents with the same texts are the same. -/
theorem ofTexts?_fieldTexts (document : Document) :
    ofTexts? document.fieldTexts = some document := rfl

end Document

end EvmTrace

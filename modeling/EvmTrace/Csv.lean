import EvmTrace.Bytes.Hex
import EvmTrace.Trace

/-!
The parts of a trace as comma-separated values: a line of column names, then a line for each entry,
with line feeds between them and none at the end. The columns that hold free text are put in quotes
if they contain a comma, a quote or a line break; a quote inside quotes is written twice.
-/

set_option autoImplicit false

namespace EvmTrace.Csv

/-- Whether a character makes quotes necessary. -/
def isSpecial (c : Char) : Bool :=
  c = ',' || c = '"' || c = '\n' || c = '\r'

/-- The way a character is written inside quotes. -/
def doubled (c : Char) : List Char :=
  if c = '"' then ['"', '"'] else [c]

def cell (text : String) : String :=
  if text.toList.any isSpecial then
    String.ofList ('"' :: (text.toList.flatMap doubled ++ ['"']))
  else text

def line (cells : List String) : String :=
  ",".intercalate cells

def table (columns : List String) (rows : List (List String)) : String :=
  "\n".intercalate (line columns :: rows.map line)

def stepColumns : List String :=
  ["pc", "depth", "opcode", "gas", "cost", "output"]

def callColumns : List String :=
  ["index", "callType", "depth", "from", "to", "value", "gas", "input", "output", "callStackPath",
   "traceAddress"]

def logColumns : List String :=
  ["address", "topics", "data", "type", "function"]

def transferColumns : List String :=
  ["from", "to", "tokenAddress", "value", "depth", "traceIndex", "callPath", "type"]

/-- A byte string of a fixed length as a cell. -/
def fixed {size : Nat} (b : FixedBytes size) : String :=
  Hex.text b.bytes

def stepCells (step : Step) : List String :=
  [toString step.pc.toNat, toString step.depth, cell step.opcode, toString step.gas.toNat,
   toString step.cost.toNat, cell step.output]

def callCells (placed : PlacedCall) : List String :=
  let call := placed.call
  [toString call.index, call.kind.name, toString call.depth, fixed call.sender,
   fixed call.recipient, call.value.decimal, toString call.gas.toNat, Hex.text call.input,
   Hex.text call.output, placed.path.text, placed.path.zeroBased.text]

/-- The topics of a log as one cell: between brackets, with spaces between them. -/
def topicsCell (topics : List Hash) : String :=
  "[" ++ " ".intercalate (topics.map fixed) ++ "]"

def logCells (log : TaggedLog) : List String :=
  [fixed log.address, topicsCell log.topics, Hex.text log.data,
   (log.standard.map TokenStandard.name).getD "", (log.function.map TokenFunction.name).getD ""]

def transferCells (transfer : Transfer) : List String :=
  [fixed transfer.sender, fixed transfer.recipient, (transfer.token.map fixed).getD "",
   transfer.value.decimal, toString transfer.depth, toString transfer.callIndex,
   transfer.path.text, transfer.kind.name]

def steps (entries : List Step) : String :=
  table stepColumns (entries.map stepCells)

def calls (entries : List PlacedCall) : String :=
  table callColumns (entries.map callCells)

def logs (entries : List TaggedLog) : String :=
  table logColumns (entries.map logCells)

def transfers (entries : List Transfer) : String :=
  table transferColumns (entries.map transferCells)

end EvmTrace.Csv

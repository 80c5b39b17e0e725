import EvmTrace.CommandLine.Arguments

set_option autoImplicit false

namespace EvmTrace.CommandLine

structure Reply where
  exitCode : Nat
  /-- The text to show. -/
  shown : String
  /-- The error to report, if there is one. -/
  error : Option String
deriving DecidableEq

def success (shown : String) : Reply := ⟨0, shown, none⟩

def failure (shown error : String) : Reply := ⟨1, shown, some error⟩

def unlines (lines : List String) : String :=
  String.join (lines.map (· ++ "\n"))

/-- The name of the variable that may name the directory for traces. -/
def directoryVariable : String := "TX_TRACE_OUT_DIR"

def programVersion : String := "0.1.0"

def schemaText (full : Bool) : String :=
  unlines <|
    ["Tx Trace Studio Document Schema", "Current Version: " ++ Document.currentVersion, ""] ++
    if full then
      ["Document Structure:",
       "  version: string        - Schema version (e.g., '1.0.0')",
       "  block: string          - Block number",
       "  tx: string             - Transaction hash",
       "  from / to: string      - Sender / recipient (empty for creation)",
       "  value: string          - Transferred value (wei)",
       "  gas_price / gas_used   - Gas accounting",
       "  optrace: csv           - " ++ Csv.line Csv.stepColumns,
       "  functrace: csv         - " ++ Csv.line Csv.callColumns,
       "  eventtrace: csv        - " ++ Csv.line Csv.logColumns,
       "  transfertrace: csv     - " ++ Csv.line Csv.transferColumns,
       "  generated_at: string   - ISO 8601 timestamp"]
    else ["Use --show for detailed schema information"]

def versionsText : String :=
  unlines
    ["Tx Trace Studio v" ++ programVersion, "Document Schema: v" ++ Document.currentVersion, "",
     "Call-tree, event and token-transfer tracing for EVM transactions."]

def documentText (document : Document) : String :=
  unlines
    ["✓ Valid trace JSON",
     "  Version: " ++ document.version,
     "  Block: " ++ document.block,
     "  Transaction: " ++ document.hash,
     "  Gas Used: " ++ document.gasUsed,
     "  Opcode Steps: " ++ toString (Document.rows document.steps),
     "  Calls: " ++ toString (Document.rows document.calls),
     "  Events: " ++ toString (Document.rows document.logs),
     "  Transfers: " ++ toString (Document.rows document.transfers)]

variable {m : Type → Type} [Monad m] [Disk m]

def validate (path : String) : m Reply := do
  let title := "Validating trace: " ++ path ++ "\n"
  match ← Store.readDocument path with
  | .error e => pure (failure title e.message)
  | .ok document =>
    match document.badTables with
    | [] => pure (success (title ++ documentText document))
    | bad => pure (failure title ("Unexpected CSV header in: " ++ ", ".intercalate bad))

def replay (now : m String) (options : Replay.Options) : m Reply := do
  match ← Replay.obstacle options with
  | some problem => pure (failure "" problem)
  | none =>
    match ← Replay.run now options with
    | .error e => pure (failure "" e.message)
    | .ok result => pure (success result.shown)

def execute (now : m String) : Command → m Reply
  | .replay options => replay now options
  | .validate path => validate path
  | .schema full => pure (success (schemaText full))
  | .versions => pure (success versionsText)
  | .programVersion => pure (success ("tx-trace " ++ programVersion ++ "\n"))

/--
Carries out what the arguments ask for; the environment may name the directory for traces. Arguments
that make no sense are answered with exit code 2.
-/
def run (now : m String) (directory : Option String) (arguments : List String) : m Reply :=
  match read? directory arguments with
  | none => pure ⟨2, "", none⟩
  | some command => execute now command

end EvmTrace.CommandLine

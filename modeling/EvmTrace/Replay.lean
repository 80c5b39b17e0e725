import EvmTrace.Recording
import EvmTrace.Sink
import EvmTrace.Summary

/-!
Tracing the transactions of a recording, one after the other, with one session and one sink. What
happens to one transaction does not keep the others from being traced; only a recording that cannot
be read is a failure of the whole run.
-/

set_option autoImplicit false

namespace EvmTrace

namespace Session

def take (session : Session) : Event → Except Error Unit × Session
  | .step step => session.step step
  | .enter call =>
    let (answer, after) := session.enter call
    (answer.map fun _ => (), after)
  | .exit depth output => session.exit depth output
  | .log log =>
    let (answer, after) := session.log log
    (answer.map fun _ => (), after)

/-- Takes events until one is not taken. -/
def feed (session : Session) : List Event → Session
  | [] => session
  | event :: rest =>
    match session.take event with
    | (.error _, after) => after
    | (.ok (), after) => after.feed rest

/-- Traces a transaction and closes it. -/
def trace (session : Session) (transaction : Transaction) :
    Except Error (Option Trace) × Session :=
  match session.start with
  | (.error e, after) => (.error e, after)
  | (.ok (), started) => (started.feed transaction.events).close transaction.metadata

/--
Traces a transaction, hands its trace to a sink and leaves the session idle. A session that is
active already stays as it is.
-/
def replay {m : Type → Type} [Monad m] (session : Session) (transaction : Transaction)
    (sink : Sink m) : m (Except Error Outcome × Session) :=
  match session.start with
  | (.error e, after) => pure (.error e, after)
  | (.ok (), started) =>
    match (started.feed transaction.events).close transaction.metadata with
    | (.ok (some trace), after) => do pure (.ok (← sink.deliver trace), after.reset)
    | (.ok none, after) => pure (.ok .skipped, after.reset)
    | (.error .tainted, after) =>
      pure (.ok (.discarded Outcome.discardReason), after.reset)
    | (.error e, after) => pure (.error e, after.reset)

end Session

namespace Replay

inductive Format where
  /-- One document. -/
  | documents
  /-- One directory of tables. -/
  | tables
deriving DecidableEq

/-- What is replayed, and what is done with the traces. -/
structure Options where
  /-- The file of the recording. -/
  input : String
  /-- The directory for the traces. -/
  directory : String := "traces"
  format : Format := .documents
  config : Config := {}
  /-- Whether the tree of calls of each transaction is shown. -/
  showTree : Bool := false
  /-- Whether the numbers of each transaction and of the run are shown. -/
  showSummary : Bool := false
deriving DecidableEq

/-- How many transactions came to which end. -/
structure Report where
  written : Nat := 0
  skipped : Nat := 0
  discarded : Nat := 0
  failed : Nat := 0
  /-- The written ones in which a token moved. -/
  withTokens : Nat := 0
deriving DecidableEq

namespace Report

def total (report : Report) : Nat :=
  report.written + report.skipped + report.discarded + report.failed

def count (report : Report) : Outcome → Report
  | .written summary =>
    { report with
      written := report.written + 1
      withTokens := report.withTokens + if summary.movesTokens then 1 else 0 }
  | .skipped => { report with skipped := report.skipped + 1 }
  | .discarded _ => { report with discarded := report.discarded + 1 }
  | .failed _ => { report with failed := report.failed + 1 }

def ruler : String :=
  String.ofList (List.replicate 80 '=')

def text (report : Report) : String :=
  String.join <| [
    "", ruler, "REPLAY SUMMARY", ruler,
    "Transactions: " ++ toString report.total,
    "Written:      " ++ toString report.written,
    "  with tokens: " ++ toString report.withTokens,
    "Skipped:      " ++ toString report.skipped,
    "Discarded:    " ++ toString report.discarded,
    "Failed:       " ++ toString report.failed,
    ruler].map (· ++ "\n")

end Report

inductive Failure where
  | unreadable (path : String) (reason : Recording.Error)
  | untraced (hash : Hash) (reason : Session.Error)
deriving DecidableEq

def Failure.message : Failure → String
  | .unreadable path _ => "Failed to read recording " ++ path
  | .untraced hash _ => "Failed to replay transaction " ++ Hex.text hash.bytes

/-- What a run answers: its report, and the text to show. -/
structure Result where
  report : Report
  shown : String
deriving DecidableEq

/-- The tree of calls of a transaction, if it leads to a trace. -/
def treeText (session : Session) (transaction : Transaction) : String :=
  match (session.trace transaction).1 with
  | .ok (some trace) =>
    Hex.text trace.metadata.hash.bytes ++ "\n" ++ Outline.text trace.calls
  | _ => ""

/-- The numbers of a transaction, if its trace was written. -/
def outcomeText (hash : Hash) : Outcome → String
  | .written summary => Hex.text hash.bytes ++ " | " ++ summary.text ++ "\n"
  | _ => ""

def shownOf (options : Options) (session : Session) (transaction : Transaction)
    (outcome : Outcome) : String :=
  (if options.showTree then treeText session transaction else "") ++
    (if options.showSummary then outcomeText transaction.metadata.hash outcome else "")

variable {m : Type → Type} [Monad m]

/-- Replays transactions after those that led to the given result. -/
def replayAll (options : Options) (sink : Sink m) (session : Session) (result : Result) :
    List Transaction → m (Except Failure Result)
  | [] => pure (.ok result)
  | transaction :: rest => do
    match ← session.replay transaction sink with
    | (.error e, _) => pure (.error (.untraced transaction.metadata.hash e))
    | (.ok outcome, after) =>
      replayAll options sink after
        { report := result.report.count outcome
          shown := result.shown ++ shownOf options session transaction outcome } rest

/-- The sink that the options ask for. -/
def sinkOf [Disk m] (now : m String) (options : Options) : Sink m :=
  match options.format with
  | .documents => Sink.documents now options.directory
  | .tables => Sink.tables options.directory

def run [Disk m] (now : m String) (options : Options) : m (Except Failure Result) := do
  match ← Recording.load options.input with
  | .error reason => pure (.error (.unreadable options.input reason))
  | .ok transactions =>
    match ← replayAll options (sinkOf now options) (Session.new options.config) ⟨{}, ""⟩
        transactions with
    | .error failure => pure (.error failure)
    | .ok result =>
      pure (.ok
        { result with
          shown := result.shown ++ if options.showSummary then result.report.text else "" })

/-- What is wrong with the paths of the options, if anything is. -/
def obstacle [Disk m] (options : Options) : m (Option String) := do
  if options.input.isEmpty then pure (some "Input recording path cannot be empty")
  else if !(← Disk.isFile options.input) then
    pure (some ("Input recording not found: " ++ options.input))
  else if options.directory.isEmpty then pure (some "Output directory cannot be empty")
  else if ← Disk.isFile options.directory then
    pure (some ("Output directory is an existing file: " ++ options.directory))
  else pure none

end Replay

end EvmTrace

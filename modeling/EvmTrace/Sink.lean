import EvmTrace.Session
import EvmTrace.Store
import EvmTrace.Summary

/-!
Where finished traces go, and the end of a transaction: its trace is handed to a sink, and the
session is idle again whatever the sink makes of it.
-/

set_option autoImplicit false

namespace EvmTrace

/-- Takes finished traces. A trace that is not taken is lost. -/
structure Sink (m : Type → Type) where
  write : Trace → m (Except Store.Error Unit)

namespace Sink

/-- Keeps the traces in memory, last one last. -/
def memory : Sink (StateM (List Trace)) where
  write trace := fun kept => (.ok (), kept ++ [trace])

def failing {m : Type → Type} [Monad m] (reason : Store.Error) : Sink m where
  write _ := pure (.error reason)

/-- Writes a document for each trace into a directory. -/
def documents {m : Type → Type} [Monad m] [Disk m] (now : m String) (directory : String) :
    Sink m where
  write trace := do
    let time ← now
    Store.writeDocument (Document.ofTrace time trace) (Store.documentPath directory trace)

/-- Writes a directory of tables for each trace into a directory. -/
def tables {m : Type → Type} [Monad m] [Disk m] (directory : String) : Sink m where
  write trace := Store.writeTables (Store.tablesPath directory trace) trace

end Sink

/-- What became of a transaction's trace. -/
inductive Outcome where
  | written (summary : Summary)
  /-- No step was taken. -/
  | skipped
  /-- A call was refused. -/
  | discarded (reason : String)
  /-- The sink did not take the trace. -/
  | failed (reason : Store.Error)
deriving DecidableEq

/-- Why the trace of a tainted transaction is discarded. -/
def Outcome.discardReason : String :=
  "session tainted by a rejected call"

variable {m : Type → Type} [Monad m]

def Sink.deliver (sink : Sink m) (trace : Trace) : m Outcome := do
  match ← sink.write trace with
  | .ok () => pure (.written (Summary.ofTrace trace))
  | .error reason => pure (.failed reason)

/-- Hands the trace of a closed transaction to a sink, if there is one. -/
def Sink.settle (sink : Sink m) :
    Except Session.Error (Option Trace) → m (Except Session.Error Outcome)
  | .ok (some trace) => do pure (.ok (← sink.deliver trace))
  | .ok none => pure (.ok .skipped)
  | .error .tainted => pure (.ok (.discarded Outcome.discardReason))
  | .error e => pure (.error e)

/--
Closes a transaction, hands its trace to a sink and leaves the session idle. A session that is not
active stays as it is.
-/
def Session.conclude (session : Session) (metadata : Metadata) (sink : Sink m) :
    m (Except Session.Error Outcome × Session) := do
  let (closed, after) := session.close metadata
  match ← sink.settle closed with
  | .error e => pure (.error e, after)
  | .ok outcome => pure (.ok outcome, after.reset)

end EvmTrace

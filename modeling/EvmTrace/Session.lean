import EvmTrace.CallTree
import EvmTrace.TokenEvent

/-!
Tracing one transaction after another. A session is idle, or active between the start and the close
of a transaction, or closed. While it is active it takes steps, calls, exits and logs; a call that
the tree refuses taints it, and nothing else is taken until the transaction is dropped.
-/

set_option autoImplicit false

namespace EvmTrace

/-- What a session accepts and records. -/
structure Config where
  /-- The greatest depth of a call. -/
  maxDepth : Nat := 1024
  /-- Whether calls with a value are recorded as transfers of native currency. -/
  nativeTransfers : Bool := true
deriving DecidableEq

namespace Session

/-- Where a session stands in a transaction. -/
inductive State where
  | idle
  | active
  | closed
deriving DecidableEq

def State.name : State → String
  | .idle => "idle"
  | .active => "active"
  | .closed => "finalized"

/-- The operations that only some states allow. -/
inductive Operation where
  | start
  | step
  | enter
  | exit
  | log
  | close
deriving DecidableEq

def Operation.name : Operation → String
  | .start => "begin"
  | .step => "record_op"
  | .enter => "enter_call"
  | .exit => "exit_call"
  | .log => "record_log"
  | .close => "finish"

/-- Why an operation is not carried out. -/
inductive Error where
  | refused (reason : Refusal)
  | wrongState (operation : Operation) (state : State)
  | tainted
deriving DecidableEq

def Error.message : Error → String
  | .refused reason => reason.message
  | .wrongState operation state =>
    operation.name ++ " is not valid while the session is " ++ state.name
  | .tainted => "session was tainted by an earlier protocol violation"

end Session

structure Session where
  config : Config
  state : Session.State
  /-- Why a call of the transaction was refused, if one was. -/
  taint : Option Refusal
  tree : CallTree
  /-- The index of the next call. -/
  nextIndex : Nat
  /-- The steps, last one first. -/
  steps : List Step
  /-- The logs, last one first. -/
  logs : List TaggedLog
  /-- The transfers, last one first. -/
  transfers : List Transfer
deriving DecidableEq

namespace Session

def new (config : Config) : Session :=
  { config, state := .idle, taint := none, tree := CallTree.empty config.maxDepth, nextIndex := 0
    steps := [], logs := [], transfers := [] }

/-- Drops what is known of a transaction. -/
def clear (session : Session) : Session :=
  { session with
    taint := none, tree := session.tree.reset, nextIndex := 0, steps := [], logs := []
    transfers := [] }

def reset (session : Session) : Session :=
  { session.clear with state := .idle }

def abort (session : Session) : Session :=
  session.reset

def start (session : Session) : Except Error Unit × Session :=
  if session.state = .active then (.error (.wrongState .start session.state), session)
  else (.ok (), { session.clear with state := .active })

/-- Why the session takes nothing of a transaction, if it does not. -/
def obstacle (session : Session) (operation : Operation) : Option Error :=
  if session.state ≠ .active then some (.wrongState operation session.state)
  else if session.taint.isSome then some .tainted
  else none

/-- A session takes something of a transaction while it is active and not tainted. -/
theorem obstacle_eq_none_iff (session : Session) (operation : Operation) :
    session.obstacle operation = none ↔ session.state = .active ∧ session.taint = none := by
  unfold obstacle
  by_cases active : session.state = .active
  · by_cases tainted : session.taint.isSome
    · have present : session.taint ≠ none := Option.isSome_iff_ne_none.mp tainted
      simp [active, tainted, present]
    · have absent : session.taint = none := Option.not_isSome_iff_eq_none.mp tainted
      simp [active, absent]
  · simp [active]

def step (session : Session) (step : Step) : Except Error Unit × Session :=
  match session.obstacle .step with
  | some e => (.error e, session)
  | none => (.ok (), { session with steps := step :: session.steps })

/-- Whether a call is recorded as a transfer of native currency. -/
def pays (config : Config) (call : Call) : Bool :=
  config.nativeTransfers && call.value ≠ 0 && call.kind.movesValue

/-- The path of the innermost open call. -/
def currentPath (tree : CallTree) : CallPath :=
  match tree.current with
  | none => []
  | some call => call.path

/-- The transfer of native currency that a call makes. -/
def payment (call : Call) (path : CallPath) : Transfer :=
  { sender := call.sender, recipient := call.recipient, token := none, value := call.value
    depth := call.depth, callIndex := call.index, path, kind := .native }

/-- Takes a call, gives it the next index and answers that index. A refused call is a taint. -/
def enter (session : Session) (call : Call) : Except Error Nat × Session :=
  match session.obstacle .enter with
  | some e => (.error e, session)
  | none =>
    let index := session.nextIndex
    let indexed := { call with index }
    match session.tree.enter indexed with
    | .error reason => (.error (.refused reason), { session with taint := some reason })
    | .ok tree =>
      let transfers :=
        if pays session.config indexed then
          payment indexed (currentPath tree) :: session.transfers
        else session.transfers
      (.ok index, { session with tree, nextIndex := index + 1, transfers })

/-- Takes the exit of the innermost open call of a depth. -/
def exit (session : Session) (depth : Nat) (output : Bytes) : Except Error Unit × Session :=
  match session.obstacle .exit with
  | some e => (.error e, session)
  | none => (.ok (), { session with tree := (session.tree.exit depth output).2 })

/-- The transfer of a token inside a call, or outside of all calls. -/
def tokenTransfer (movement : TokenMovement) (call : Option OpenCall) : Transfer :=
  { sender := movement.sender, recipient := movement.recipient, token := some movement.token
    value := movement.value, kind := movement.kind
    depth := (call.map OpenCall.depth).getD 0
    callIndex := (call.map OpenCall.index).getD 0
    path := (call.map OpenCall.path).getD [] }

def tag (log : Log) (event : TokenEvent) : TaggedLog :=
  { log with standard := event.standard, function := event.function }

def log (session : Session) (log : Log) : Except Error TokenEvent × Session :=
  match session.obstacle .log with
  | some e => (.error e, session)
  | none =>
    let event := TokenEvent.classify log.topics log.data log.address
    let transfers :=
      match event.movement with
      | none => session.transfers
      | some movement => tokenTransfer movement session.tree.current :: session.transfers
    (.ok event, { session with transfers, logs := tag log event :: session.logs })

/--
Closes the transaction and answers its trace, or none if no step was taken. The trace of a tainted
transaction is dropped.
-/
def close (session : Session) (metadata : Metadata) : Except Error (Option Trace) × Session :=
  if session.state ≠ .active then (.error (.wrongState .close session.state), session)
  else if session.taint.isSome then (.error .tainted, { session.clear with state := .closed })
  else
    let (calls, tree) := session.tree.finish
    if session.steps.isEmpty then (.ok none, { session.clear with state := .closed })
    else
      (.ok (some
        { metadata, calls, steps := session.steps.reverse, logs := session.logs.reverse
          transfers := session.transfers.reverse }),
        { session with state := .closed, tree, steps := [], logs := [], transfers := [] })

end Session

end EvmTrace

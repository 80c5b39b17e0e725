import EvmTrace.Replay

/-!
A host that uses one session for all its transactions. What it asks and what it is answered is kept,
together with the traces that sinks were called with. The sinks read and change a world of which
nothing is known.
-/

set_option autoImplicit false

namespace EvmTrace

/-- Takes events one after the other, whatever is answered to them. -/
def Session.takeAll (session : Session) (events : List Event) : Session :=
  events.foldl (fun session event => (session.take event).2) session

/-- A sink that also notes the traces that it is called with. -/
def Sink.noting {World : Type} (sink : Sink (StateM World)) :
    Sink (StateM (World × List Trace)) where
  write trace := fun (world, noted) =>
    let (reply, world) := sink.write trace world
    (reply, world, noted ++ [trace])

/-- What a host asks of a session. -/
inductive Request (World : Type) where
  | start
  | step (step : Step)
  | enter (call : Call)
  | exit (depth : Nat) (output : Bytes)
  | log (log : Log)
  | close (metadata : Metadata)
  | conclude (metadata : Metadata) (sink : Sink (StateM World))
  | abort
  | reset

def Request.event? {World : Type} : Request World → Option Event
  | .step taken => some (.step taken)
  | .enter call => some (.enter call)
  | .exit depth output => some (.exit depth output)
  | .log emitted => some (.log emitted)
  | _ => none

/-- What a session answers. -/
inductive Answer where
  | done (result : Except Session.Error Unit)
  | index (result : Except Session.Error Nat)
  | event (result : Except Session.Error TokenEvent)
  | trace (result : Except Session.Error (Option Trace))
  | outcome (result : Except Session.Error Outcome)

/-- What a request leads to. -/
structure Reply (World : Type) where
  answer : Answer
  session : Session
  world : World
  /-- The traces that a sink was called with. -/
  handed : List Trace

/-- Serves a request. -/
def Session.serve {World : Type} (session : Session) (world : World) :
    Request World → Reply World
  | .start =>
    let (result, session) := session.start
    { answer := .done result, session, world, handed := [] }
  | .step step =>
    let (result, session) := session.step step
    { answer := .done result, session, world, handed := [] }
  | .enter call =>
    let (result, session) := session.enter call
    { answer := .index result, session, world, handed := [] }
  | .exit depth output =>
    let (result, session) := session.exit depth output
    { answer := .done result, session, world, handed := [] }
  | .log log =>
    let (result, session) := session.log log
    { answer := .event result, session, world, handed := [] }
  | .close metadata =>
    let (result, session) := session.close metadata
    { answer := .trace result, session, world, handed := [] }
  | .conclude metadata sink =>
    let ((result, session), world, handed) := session.conclude metadata sink.noting (world, [])
    { answer := .outcome result, session, world, handed }
  | .abort => { answer := .done (.ok ()), session := session.abort, world, handed := [] }
  | .reset => { answer := .done (.ok ()), session := session.reset, world, handed := [] }

/-- A log, tagged with the token event that it is recognised as. -/
def Log.tagged (log : Log) : TaggedLog :=
  let event := TokenEvent.classify log.topics log.data log.address
  { log with standard := event.standard, function := event.function }

/-- A request that was served, and the answer to it. -/
structure Exchange (World : Type) where
  request : Request World
  answer : Answer

namespace Exchange

variable {World : Type}

def starts (exchange : Exchange World) : Bool :=
  match exchange.request, exchange.answer with
  | .start, .done (.ok ()) => true
  | _, _ => false

def refuses (exchange : Exchange World) : Bool :=
  match exchange.answer with
  | .index (.error (.refused _)) => true
  | _ => false

def step? (exchange : Exchange World) : Option Step :=
  match exchange.request, exchange.answer with
  | .step step, .done (.ok ()) => some step
  | _, _ => none

def log? (exchange : Exchange World) : Option TaggedLog :=
  match exchange.request, exchange.answer with
  | .log log, .event (.ok _) => some log.tagged
  | _, _ => none

end Exchange

/-- A session, the world around it and the exchanges so far. -/
structure Host (World : Type) where
  session : Session
  world : World
  past : List (Exchange World)

namespace Host

variable {World : Type}

def new (config : Config) (world : World) : Host World :=
  { session := .new config, world, past := [] }

def serve (host : Host World) (request : Request World) : Host World :=
  let reply := host.session.serve host.world request
  { session := reply.session, world := reply.world
    past := host.past ++ [{ request, answer := reply.answer }] }

def run (host : Host World) (requests : List (Request World)) : Host World :=
  requests.foldl serve host

theorem run_snoc (host : Host World) (requests : List (Request World)) (request : Request World) :
    host.run (requests ++ [request]) = (host.run requests).serve request :=
  List.foldl_append

/-- The exchanges behind the last start of a transaction. -/
def sinceStart (past : List (Exchange World)) : List (Exchange World) :=
  past.foldl (fun since exchange => if exchange.starts then [] else since ++ [exchange]) []

theorem sinceStart_snoc (past : List (Exchange World)) (exchange : Exchange World) :
    sinceStart (past ++ [exchange]) =
      if exchange.starts then [] else sinceStart past ++ [exchange] :=
  List.foldl_append

end Host

end EvmTrace

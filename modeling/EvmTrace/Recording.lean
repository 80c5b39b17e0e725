import EvmTrace.Disk
import EvmTrace.Json.Reader
import EvmTrace.Trace.Codec

/-!
Recordings of what a host reported while it ran transactions: JSON text that holds one transaction
or an array of transactions, each with its metadata and its events in order. A single bad event
makes the whole recording unreadable, since the calls after it would change their places.
-/

set_option autoImplicit false

namespace EvmTrace

/-- What a host reports while a transaction runs. -/
inductive Event where
  | step (step : Step)
  | enter (call : Call)
  | exit (depth : Nat) (output : Bytes)
  | log (log : Log)
deriving DecidableEq

structure Transaction where
  metadata : Metadata
  events : List Event
deriving DecidableEq

namespace Event

open Decode

def kinds : List String := ["op", "enter", "exit", "log"]

def exitShape : Shape Event :=
  Shape.make Event.exit
    |>.field (.required "depth" count)
    |>.field (.defaulted "output" bytes [])

def decodeFields (kind : String) (fields : Json) : Except DecodeError Event :=
  if kind = "op" then (Step.shape.decode fields).map .step
  else if kind = "enter" then ((Call.shape .empty).decode fields).map .enter
  else if kind = "exit" then exitShape.decode fields
  else if kind = "log" then (Log.shape.decode fields).map .log
  else .error (.unknownVariant kind kinds)

/--
Reads an event: an object whose member `type` names the kind, or an array that begins with the name.
-/
def decode : Decoder Event
  | .object members =>
    match Json.lookup "type" members with
    | none => .error (.missingField "type")
    | some (.string kind) => decodeFields kind (.object members)
    | some _ => .error .invalidType
  | .array [] => .error (.missingField "type")
  | .array (.string kind :: fields) => decodeFields kind (.array fields)
  | _ => .error .invalidType

def kind : Event → String
  | .step _ => "op"
  | .enter _ => "enter"
  | .exit _ _ => "exit"
  | .log _ => "log"

/-- The members of an event without its kind. -/
def fields : Event → List (String × Json)
  | .step taken => taken.members
  | .enter call => call.members
  | .exit depth output => [("depth", .ofNat depth), ("output", .ofBytes output)]
  | .log emitted => emitted.members

def toJson (event : Event) : Json :=
  .object (("type", .string event.kind) :: event.fields)

end Event

namespace Transaction

/-- Reads the events of a transaction, which has none if it does not mention any. -/
def decodeEvents : Option Json → Except DecodeError (List Event)
  | none => .ok []
  | some value => Decode.list Event.decode value

/-- Reads a transaction: an object with the fields of its metadata and its events. -/
def decode : Decoder Transaction
  | .object members =>
    match decodeEvents (Json.lookup "events" members) with
    | .error e => .error e
    | .ok events =>
      match Metadata.shape.ofMembers members with
      | .error e => .error e
      | .ok metadata => .ok { metadata, events }
  | _ => .error .invalidType

end Transaction

namespace Recording

inductive Error where
  | unreadable (reason : Disk.Error)
  | notJson
  /-- The JSON value is neither an object nor an array. -/
  | notTransactions
  | badTransaction (position : Nat) (reason : DecodeError)
deriving DecidableEq

def formatMessage (detail : String) : String :=
  "Invalid event recording: " ++ detail

def Error.message : Error → String
  | .unreadable reason => "Failed to read input: " ++ reason.message
  | .notJson => "JSON deserialization failed"
  | .notTransactions => formatMessage "Recording must be a JSON object or array"
  | .badTransaction position reason =>
    formatMessage ("Transaction " ++ toString position ++ ": " ++ reason.message)

/-- Reads transactions that are counted from a position on. -/
def readTransactions (position : Nat) : List Json → Except Error (List Transaction)
  | [] => .ok []
  | value :: rest =>
    match Transaction.decode value with
    | .error e => .error (.badTransaction position e)
    | .ok transaction =>
      match readTransactions (position + 1) rest with
      | .error e => .error e
      | .ok transactions => .ok (transaction :: transactions)

def ofJson : Json → Except Error (List Transaction)
  | .object members => readTransactions 0 [.object members]
  | .array values => readTransactions 0 values
  | _ => .error .notTransactions

def ofBytes (content : Bytes) : Except Error (List Transaction) :=
  match Text.decode? content with
  | none => .error (.unreadable .notText)
  | some text =>
    match Json.read? text with
    | none => .error .notJson
    | some value => ofJson value

def load {m : Type → Type} [Monad m] [Disk m] (path : String) :
    m (Except Error (List Transaction)) := do
  match ← Disk.contents path with
  | .error reason => pure (.error (.unreadable reason))
  | .ok content => pure (ofBytes content)

end Recording

end EvmTrace

import EvmTrace.Decode.Shape
import EvmTrace.Trace

set_option autoImplicit false

namespace EvmTrace

open Decode

/-- The JSON value of a 64-bit number. -/
def Json.ofUInt64 (n : UInt64) : Json :=
  .ofNat n.toNat

/-- The JSON value of a byte string. -/
def Json.ofBytes (bytes : Bytes) : Json :=
  .string (Hex.text bytes)

/-- The JSON value of a byte string of a fixed length. -/
def Json.ofFixed {size : Nat} (b : FixedBytes size) : Json :=
  .ofBytes b.bytes

/-- The JSON value of a word. -/
def Json.ofWord (w : Word) : Json :=
  .string w.hex

/-- The JSON value of a path. -/
def Json.ofPath (path : CallPath) : Json :=
  .array (path.map .ofNat)

def Decode.address : Decoder Address := fixedBytes 20

def Decode.hash : Decoder Hash := fixedBytes 32

namespace CallKind

def decode (payload : Payload) : Decoder CallKind :=
  variant payload (all.map fun kind => (kind.name, kind))

def toJson (kind : CallKind) : Json := .string kind.name

end CallKind

namespace TokenStandard

def decode : Decoder TokenStandard :=
  variant .null (all.map fun standard => (standard.name, standard))

def toJson (standard : TokenStandard) : Json := .string standard.name

end TokenStandard

namespace TokenFunction

def decode : Decoder TokenFunction :=
  variant .null (all.map fun function => (function.name, function))

def toJson (function : TokenFunction) : Json := .string function.name

end TokenFunction

namespace TransferKind

def decode : Decoder TransferKind :=
  variant .null (all.map fun kind => (kind.name, kind))

def toJson (kind : TransferKind) : Json := .string kind.name

end TransferKind

namespace Step

def shape : Shape Step :=
  Shape.make Step.mk
    |>.field (.required "pc" uint64)
    |>.field (.required "depth" count)
    |>.field (.required "opcode" text)
    |>.field (.required "gas" uint64)
    |>.field (.required "cost" uint64)
    |>.field (.defaulted "output" text "")

def members (step : Step) : List (String × Json) :=
  [("pc", .ofUInt64 step.pc), ("depth", .ofNat step.depth), ("opcode", .string step.opcode),
   ("gas", .ofUInt64 step.gas), ("cost", .ofUInt64 step.cost), ("output", .string step.output)]

def toJson (step : Step) : Json := .object step.members

end Step

namespace Call

/-- The fields of a call, whose kind may stand beside the given payload. -/
def shape (payload : Payload) : Shape Call :=
  Shape.make Call.mk
    |>.field (.defaulted "index" count 0)
    |>.field (.required "callType" (CallKind.decode payload))
    |>.field (.required "depth" count)
    |>.field (.required "from" Decode.address)
    |>.field (.required "to" Decode.address)
    |>.field (.defaulted "value" word 0)
    |>.field (.defaulted "gas" uint64 0)
    |>.field (.defaulted "input" bytes [])
    |>.field (.defaulted "output" bytes [])

def members (call : Call) : List (String × Json) :=
  [("index", .ofNat call.index), ("callType", call.kind.toJson), ("depth", .ofNat call.depth),
   ("from", .ofFixed call.sender), ("to", .ofFixed call.recipient), ("value", .ofWord call.value),
   ("gas", .ofUInt64 call.gas), ("input", .ofBytes call.input), ("output", .ofBytes call.output)]

def toJson (call : Call) : Json := .object call.members

end Call

namespace PlacedCall

def shape : Shape PlacedCall :=
  Shape.make PlacedCall.mk
    |>.field (.required "call" (Call.shape .null).decode)
    |>.field (.required "call_path" (list count))

def members (placed : PlacedCall) : List (String × Json) :=
  [("call", placed.call.toJson), ("call_path", .ofPath placed.path)]

def toJson (placed : PlacedCall) : Json := .object placed.members

end PlacedCall

namespace Log

def shape : Shape Log :=
  Shape.make Log.mk
    |>.field (.required "address" Decode.address)
    |>.field (.defaulted "topics" (list Decode.hash) [])
    |>.field (.defaulted "data" bytes [])

def members (log : Log) : List (String × Json) :=
  [("address", .ofFixed log.address), ("topics", .array (log.topics.map .ofFixed)),
   ("data", .ofBytes log.data)]

def toJson (log : Log) : Json := .object log.members

end Log

namespace TaggedLog

def shape : Shape TaggedLog :=
  Shape.make (fun address topics data standard function =>
      { address, topics, data, standard, function })
    |>.field (.required "address" Decode.address)
    |>.field (.required "topics" (list Decode.hash))
    |>.field (.required "data" bytes)
    |>.field (.nullable "standard" TokenStandard.decode)
    |>.field (.nullable "function" TokenFunction.decode)

def members (log : TaggedLog) : List (String × Json) :=
  log.toLog.members ++
    [("standard", .ofOption TokenStandard.toJson log.standard),
     ("function", .ofOption TokenFunction.toJson log.function)]

def toJson (log : TaggedLog) : Json := .object log.members

end TaggedLog

namespace Transfer

def shape : Shape Transfer :=
  Shape.make Transfer.mk
    |>.field (.required "from" Decode.address)
    |>.field (.required "to" Decode.address)
    |>.field (.nullable "token_address" Decode.address)
    |>.field (.required "value" word)
    |>.field (.required "depth" count)
    |>.field (.required "trace_index" count)
    |>.field (.required "call_path" (list count))
    |>.field (.required "kind" TransferKind.decode)

def members (transfer : Transfer) : List (String × Json) :=
  [("from", .ofFixed transfer.sender), ("to", .ofFixed transfer.recipient),
   ("token_address", .ofOption .ofFixed transfer.token), ("value", .ofWord transfer.value),
   ("depth", .ofNat transfer.depth), ("trace_index", .ofNat transfer.callIndex),
   ("call_path", .ofPath transfer.path), ("kind", transfer.kind.toJson)]

def toJson (transfer : Transfer) : Json := .object transfer.members

end Transfer

namespace Metadata

def shape : Shape Metadata :=
  Shape.make Metadata.mk
    |>.field (.required "blockNumber" uint64)
    |>.field (.required "txHash" Decode.hash)
    |>.field (.required "from" Decode.address)
    |>.field (.defaulted "to" (optional Decode.address) none)
    |>.field (.defaulted "value" word 0)
    |>.field (.defaulted "gasPrice" word 0)
    |>.field (.defaulted "gasUsed" uint64 0)

def members (metadata : Metadata) : List (String × Json) :=
  [("blockNumber", .ofUInt64 metadata.block), ("txHash", .ofFixed metadata.hash),
   ("from", .ofFixed metadata.sender), ("to", .ofOption .ofFixed metadata.recipient),
   ("value", .ofWord metadata.value), ("gasPrice", .ofWord metadata.gasPrice),
   ("gasUsed", .ofUInt64 metadata.gasUsed)]

def toJson (metadata : Metadata) : Json := .object metadata.members

end Metadata

namespace Trace

def shape : Shape Trace :=
  Shape.make Trace.mk
    |>.field (.required "metadata" Metadata.shape.decode)
    |>.field (.required "op_trace" (list Step.shape.decode))
    |>.field (.required "function_trace" (list PlacedCall.shape.decode))
    |>.field (.required "event_trace" (list TaggedLog.shape.decode))
    |>.field (.required "transfer_trace" (list Transfer.shape.decode))

def members (trace : Trace) : List (String × Json) :=
  [("metadata", trace.metadata.toJson), ("op_trace", .array (trace.steps.map Step.toJson)),
   ("function_trace", .array (trace.calls.map PlacedCall.toJson)),
   ("event_trace", .array (trace.logs.map TaggedLog.toJson)),
   ("transfer_trace", .array (trace.transfers.map Transfer.toJson))]

def toJson (trace : Trace) : Json := .object trace.members

end Trace

end EvmTrace

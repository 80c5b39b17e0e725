import EvmTrace.Bytes.Hex
import EvmTrace.Trace

set_option autoImplicit false

namespace EvmTrace

structure Summary where
  steps : Nat
  calls : Nat
  /-- The greatest depth of a call, or zero. -/
  maxDepth : Nat
  /-- The number of calls of each kind that occurs, by name in the order of names. -/
  callsByKind : List (String × Nat)
  logs : Nat
  /-- The logs that were recognised as token events. -/
  recognised : Nat
  native : Nat
  erc20 : Nat
  erc721 : Nat
deriving DecidableEq

namespace Summary

/-- One more for a name, among numbers by name in the order of names. -/
def tally (name : String) : List (String × Nat) → List (String × Nat)
  | [] => [(name, 1)]
  | (other, count) :: rest =>
    if name < other then (name, 1) :: (other, count) :: rest
    else if name = other then (other, count + 1) :: rest
    else (other, count) :: tally name rest

def countKinds (calls : List PlacedCall) : List (String × Nat) :=
  calls.foldl (fun counts placed => tally placed.call.kind.name counts) []

def countTransfers (transfers : List Transfer) (kind : TransferKind) : Nat :=
  transfers.countP fun transfer => transfer.kind = kind

def greatestDepth (calls : List PlacedCall) : Nat :=
  calls.foldl (fun depth placed => max depth placed.call.depth) 0

def ofTrace (trace : Trace) : Summary :=
  { steps := trace.steps.length
    calls := trace.calls.length
    maxDepth := greatestDepth trace.calls
    callsByKind := countKinds trace.calls
    logs := trace.logs.length
    recognised := trace.logs.countP fun log => log.standard.isSome
    native := countTransfers trace.transfers .native
    erc20 := countTransfers trace.transfers .erc20
    erc721 := countTransfers trace.transfers .erc721 }

def movesTokens (summary : Summary) : Bool :=
  0 < summary.erc20 + summary.erc721

def text (summary : Summary) : String :=
  "Steps: " ++ toString summary.steps ++
  " | Calls: " ++ toString summary.calls ++
  " (max depth " ++ toString summary.maxDepth ++
  ") | Events: " ++ toString summary.logs ++
  " (" ++ toString summary.recognised ++
  " classified) | Transfers: " ++ toString summary.native ++
  " native, " ++ toString summary.erc20 ++
  " ERC20, " ++ toString summary.erc721 ++ " ERC721"

end Summary

namespace Outline

def shownInput : Nat := 4

/-- The line of a call, two spaces further right for each call around it. -/
def line (placed : PlacedCall) : String :=
  let call := placed.call
  String.join (List.replicate call.depth "  ") ++
    "[" ++ placed.path.text ++ "] " ++ call.kind.name ++
    " " ++ Hex.text call.sender.bytes ++ " -> " ++ Hex.text call.recipient.bytes ++
    " value=" ++ call.value.decimal ++ " gas=" ++ toString call.gas.toNat ++
    " input=" ++ Hex.text (call.input.take shownInput) ++ "\n"

def text (calls : List PlacedCall) : String :=
  String.join (calls.map line)

end Outline

end EvmTrace

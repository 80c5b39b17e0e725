import EvmTrace.Text.Lowercase
import EvmTrace.Word

set_option autoImplicit false

namespace EvmTrace

inductive CallKind where
  | call
  | callCode
  | delegateCall
  | staticCall
  | create
  | create2
  | selfDestruct
deriving DecidableEq

namespace CallKind

def all : List CallKind :=
  [call, callCode, delegateCall, staticCall, create, create2, selfDestruct]

def name : CallKind → String
  | call => "CALL"
  | callCode => "CALLCODE"
  | delegateCall => "DELEGATECALL"
  | staticCall => "STATICCALL"
  | create => "CREATE"
  | create2 => "CREATE2"
  | selfDestruct => "SELFDESTRUCT"

/--
Whether the value of such a call is paid. A delegate call repeats the value of its caller's call,
and a static call has none.
-/
def movesValue : CallKind → Bool
  | delegateCall | staticCall => false
  | _ => true

/-- The kind with a given lower-case name. -/
def ofLowercase? (text : String) : Option CallKind :=
  if text = "call" then some call
  else if text = "callcode" then some callCode
  else if text = "delegatecall" then some delegateCall
  else if text = "staticcall" then some staticCall
  else if text = "create" then some create
  else if text = "create2" then some create2
  else if text = "selfdestruct" ∨ text = "suicide" then some selfDestruct
  else none

/-- What is said of a text that is no name, which is repeated in lower case. -/
def unknownName (lowercase : String) : String :=
  "Unknown call type: " ++ lowercase

/-- The kind with a given name in any letter case, or what is said of a text that is no name. -/
def parse (text : String) : Except String CallKind :=
  match ofLowercase? (Text.lowercase text) with
  | some kind => .ok kind
  | none => .error (unknownName (Text.lowercase text))

end CallKind

/-- A call as it is entered, and the data it returned once it has exited. -/
structure Call where
  /-- The position of the call among all calls in the order of their entry. -/
  index : Nat
  kind : CallKind
  /-- The number of calls around this one; a transaction's own call has none. -/
  depth : Nat
  sender : Address
  recipient : Address
  value : Word
  gas : UInt64
  input : Bytes
  output : Bytes
deriving DecidableEq

/-- A call without value, gas and data. -/
def Call.plain (kind : CallKind) (depth : Nat) (sender recipient : Address) : Call :=
  { index := 0, kind, depth, sender, recipient, value := 0, gas := 0, input := [], output := [] }

/-- The ordinals, counted from one, of a call and of the calls around it among their siblings. -/
abbrev CallPath := List Nat

namespace CallPath

def text (path : CallPath) : String :=
  "_".intercalate (path.map toString)

/-- The same path with ordinals counted from zero. -/
def zeroBased (path : CallPath) : CallPath :=
  path.map (· - 1)

end CallPath

/-- A call with its place in the tree of calls. -/
structure PlacedCall where
  call : Call
  /-- The path below the transaction's own call, empty for that call. -/
  path : CallPath
deriving DecidableEq

end EvmTrace

import EvmTrace.Call

set_option autoImplicit false

namespace EvmTrace

/-- One instruction that was run. -/
structure Step where
  pc : UInt64
  depth : Nat
  opcode : String
  gas : UInt64
  cost : UInt64
  /-- Whatever else the host reports of the instruction. -/
  output : String
deriving DecidableEq

/-- A log as a contract emits it. -/
structure Log where
  address : Address
  topics : List Hash
  data : Bytes
deriving DecidableEq

/-- The token interface that the shape of a log suggests. -/
inductive TokenStandard where
  | erc20
  | erc721
deriving DecidableEq

namespace TokenStandard

def all : List TokenStandard := [erc20, erc721]

def name : TokenStandard → String
  | erc20 => "ERC20"
  | erc721 => "ERC721"

end TokenStandard

/-- The token event that a log reports. -/
inductive TokenFunction where
  | transfer
  | approval
  | approvalForAll
deriving DecidableEq

namespace TokenFunction

def all : List TokenFunction := [transfer, approval, approvalForAll]

def name : TokenFunction → String
  | transfer => "Transfer"
  | approval => "Approval"
  | approvalForAll => "ApprovalForAll"

end TokenFunction

/-- A log with the token event that it was recognised as. -/
structure TaggedLog extends Log where
  standard : Option TokenStandard
  function : Option TokenFunction
deriving DecidableEq

/-- What a transfer moves. -/
inductive TransferKind where
  | native
  | erc20
  | erc721
deriving DecidableEq

namespace TransferKind

def all : List TransferKind := [native, erc20, erc721]

def name : TransferKind → String
  | native => "NATIVE"
  | erc20 => "ERC20"
  | erc721 => "ERC721"

end TransferKind

/-- A movement of value. -/
structure Transfer where
  sender : Address
  recipient : Address
  /-- The token's contract, or none for native currency. -/
  token : Option Address
  /-- The amount, or the identity of the token that moved. -/
  value : Word
  depth : Nat
  /-- The index of the call in which the transfer happened. -/
  callIndex : Nat
  path : CallPath
  kind : TransferKind
deriving DecidableEq

/-- What is known of a transaction once it is over. -/
structure Metadata where
  block : UInt64
  hash : Hash
  sender : Address
  /-- The account called, or none if the transaction creates a contract. -/
  recipient : Option Address
  value : Word
  gasPrice : Word
  gasUsed : UInt64
deriving DecidableEq

/-- The trace of one transaction. -/
structure Trace where
  metadata : Metadata
  steps : List Step
  calls : List PlacedCall
  logs : List TaggedLog
  transfers : List Transfer
deriving DecidableEq

end EvmTrace

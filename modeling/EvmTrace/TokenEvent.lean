import EvmTrace.Keccak
import EvmTrace.Text
import EvmTrace.Trace

/-!
Token events recognised by the shape of a log: its first topic is the digest of an event's
signature, and the number of topics tells the token standard. Whether the contract implements the
standard is not asked.
-/

set_option autoImplicit false

namespace EvmTrace

/-- The digest of an event's signature. -/
def signatureHash (signature : String) : Hash :=
  Keccak.digest (Text.encode signature)

/-- The first topic of a transfer. -/
def transferTopic : Hash := signatureHash "Transfer(address,address,uint256)"

/-- The first topic of an approval. -/
def approvalTopic : Hash := signatureHash "Approval(address,address,uint256)"

/-- The first topic of an approval for all tokens of an owner. -/
def approvalForAllTopic : Hash := signatureHash "ApprovalForAll(address,address,bool)"

/-- What a log tells about a token. -/
inductive TokenEvent where
  | erc20Transfer (token sender recipient : Address) (value : Word)
  | erc20Approval
  | erc721Transfer (token sender recipient : Address) (identity : Word)
  | erc721Approval
  | erc721ApprovalForAll
  | unknown
deriving DecidableEq

/-- A token on its way from one account to another. -/
structure TokenMovement where
  token : Address
  sender : Address
  recipient : Address
  /-- The amount, or the identity of the token. -/
  value : Word
  kind : TransferKind
deriving DecidableEq

namespace TokenEvent

/-- The token standard of an event. -/
def standard : TokenEvent → Option TokenStandard
  | erc20Transfer .. | erc20Approval => some .erc20
  | erc721Transfer .. | erc721Approval | erc721ApprovalForAll => some .erc721
  | unknown => none

/-- The function of the standard that an event reports. -/
def function : TokenEvent → Option TokenFunction
  | erc20Transfer .. | erc721Transfer .. => some .transfer
  | erc20Approval | erc721Approval => some .approval
  | erc721ApprovalForAll => some .approvalForAll
  | unknown => none

/-- The movement that an event reports. -/
def movement : TokenEvent → Option TokenMovement
  | erc20Transfer token sender recipient value =>
    some { token, sender, recipient, value, kind := .erc20 }
  | erc721Transfer token sender recipient identity =>
    some { token, sender, recipient, value := identity, kind := .erc721 }
  | _ => none

/-- The word that starts a byte string of at least 32 bytes. -/
def leadingWord (data : Bytes) : Option Word :=
  if 32 ≤ data.length then some (Word.ofBytes (data.take 32)) else none

/-- What a log with three topics tells. -/
def ofThree (contract : Address) (signature sender recipient : Hash) (data : Bytes) : TokenEvent :=
  if signature = transferTopic then
    match leadingWord data with
    | some value => erc20Transfer contract sender.address recipient.address value
    | none => unknown
  else if signature = approvalTopic then erc20Approval
  else unknown

/-- What a log with four topics tells. -/
def ofFour (contract : Address) (signature sender recipient last : Hash) : TokenEvent :=
  if signature = transferTopic then
    erc721Transfer contract sender.address recipient.address (Word.ofHash last)
  else if signature = approvalTopic then erc721Approval
  else if signature = approvalForAllTopic then erc721ApprovalForAll
  else unknown

/-- What a log of a contract tells. -/
def classify (topics : List Hash) (data : Bytes) (contract : Address) : TokenEvent :=
  match topics with
  | [signature, sender, recipient] => ofThree contract signature sender recipient data
  | [signature, sender, recipient, last] => ofFour contract signature sender recipient last
  | _ => unknown

end TokenEvent

end EvmTrace

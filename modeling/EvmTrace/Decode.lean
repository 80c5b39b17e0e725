import EvmTrace.Bytes.Hex
import EvmTrace.Json
import EvmTrace.Text
import EvmTrace.Word

set_option autoImplicit false

namespace EvmTrace

inductive DecodeError where
  | invalidType
  | invalidValue
  | invalidLength
  | missingField (name : String)
  | unknownVariant (name : String) (known : List String)
  | hex (error : Hex.Error)
deriving DecidableEq

namespace DecodeError

def quoted (name : String) : String :=
  "`" ++ name ++ "`"

def expectation : List String → String
  | [] => "there are no variants"
  | [only] => "expected " ++ quoted only
  | [first, second] => "expected " ++ quoted first ++ " or " ++ quoted second
  | names => "expected one of " ++ ", ".intercalate (names.map quoted)

def message : DecodeError → String
  | .invalidType => "invalid type"
  | .invalidValue => "invalid value"
  | .invalidLength => "invalid length"
  | .missingField name => "missing field " ++ quoted name
  | .unknownVariant name known => "unknown variant " ++ quoted name ++ ", " ++ expectation known
  | .hex error => error.message

end DecodeError

abbrev Decoder (α : Type) := Json → Except DecodeError α

namespace Decode

def count : Decoder Nat
  | .int n => if n < 0 then .error .invalidValue else .ok n.toNat
  | _ => .error .invalidType

def uint64 : Decoder UInt64
  | .int n =>
    if n < 0 then .error .invalidValue
    else if n.toNat < UInt64.size then .ok (UInt64.ofNat n.toNat)
    else .error .invalidType
  | _ => .error .invalidType

def byte : Decoder UInt8
  | .int n => if 0 ≤ n ∧ n < 256 then .ok (UInt8.ofNat n.toNat) else .error .invalidValue
  | _ => .error .invalidType

def text : Decoder String
  | .string value => .ok value
  | _ => .error .invalidType

/-- The items of an array in order; the first bad one is the error. -/
def items {α : Type} (decode : Decoder α) : List Json → Except DecodeError (List α)
  | [] => .ok []
  | item :: rest =>
    match decode item with
    | .error e => .error e
    | .ok value =>
      match items decode rest with
      | .error e => .error e
      | .ok values => .ok (value :: values)

def list {α : Type} (decode : Decoder α) : Decoder (List α)
  | .array values => items decode values
  | _ => .error .invalidType

def optional {α : Type} (decode : Decoder α) : Decoder (Option α)
  | .null => .ok none
  | value => (decode value).map some

/-- A byte string as hexadecimal text or as an array of bytes. -/
def bytes : Decoder Bytes
  | .string value =>
    match Hex.read (Text.encode value) with
    | .error _ => .error .invalidValue
    | .ok result => .ok result
  | .array values => items byte values
  | _ => .error .invalidType

/--
What the array of a fixed byte string may hold after its bytes: nothing, or one item that is no
byte.
-/
def isSurplus : List Json → Bool
  | [] => false
  | [item] => (byte item).isOk
  | _ => true

def fixedBytes (size : Nat) : Decoder (FixedBytes size)
  | .string value => (Hex.readFixed size (Text.encode value)).mapError .hex
  | .array values =>
    match items byte (values.take size) with
    | .error e => .error e
    | .ok result =>
      match FixedBytes.ofBytes? size result with
      | none => .error .invalidLength
      | some b => if isSurplus (values.drop size) then .error .invalidLength else .ok b
  | _ => .error .invalidType

/-- A word as an unsigned number of 64 bits or as text in a base that its marker names. -/
def word : Decoder Word
  | .int n =>
    if 0 ≤ n ∧ n.toNat < UInt64.size then .ok (BitVec.ofNat 256 n.toNat) else .error .invalidType
  | .string value =>
    match Word.read? value with
    | none => .error .invalidValue
    | some w => .ok w
  | _ => .error .invalidType

/-- What the value beside the name of a variant may be. -/
inductive Payload where
  | null
  /-- Null or an object without members. -/
  | empty

def Payload.accepts : Payload → Json → Bool
  | _, .null => true
  | .empty, .object [] => true
  | _, _ => false

/-- The variant of a name. -/
def named {α : Type} (variants : List (String × α)) (name : String) : Except DecodeError α :=
  match variants.find? fun variant => variant.1 = name with
  | some variant => .ok variant.2
  | none => .error (.unknownVariant name (variants.map (·.1)))

/-- A variant by its name, which may also be the only key of an object. -/
def variant {α : Type} (payload : Payload) (variants : List (String × α)) : Decoder α
  | .string name => named variants name
  | .object [(name, value)] =>
    match named variants name with
    | .error e => .error e
    | .ok result => if payload.accepts value then .ok result else .error .invalidType
  | .object _ => .error .invalidValue
  | _ => .error .invalidType

end Decode

end EvmTrace

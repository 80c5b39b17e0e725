import EvmTrace.Bytes

/-!
Hexadecimal text of byte strings. Writing gives two lower-case digits for each byte after `0x`;
reading takes either letter case, with or without `0x` or `0X`.
-/

set_option autoImplicit false

namespace EvmTrace.Hex

/-- The two digits of a byte, high one first. -/
def digits (byte : UInt8) : List Char :=
  [Nat.digitChar (byte.toNat / 16), Nat.digitChar (byte.toNat % 16)]

/-- The digits of a byte string, without a marker in front. -/
def body (bytes : Bytes) : List Char :=
  bytes.flatMap digits

def text (bytes : Bytes) : String :=
  String.ofList ('0' :: 'x' :: body bytes)

/-- The value of a digit, given as a byte of ASCII text. -/
def digitValue? (byte : UInt8) : Option UInt8 :=
  if 48 ≤ byte ∧ byte ≤ 57 then some (byte - 48)
  else if 97 ≤ byte ∧ byte ≤ 102 then some (byte - 87)
  else if 65 ≤ byte ∧ byte ≤ 70 then some (byte - 55)
  else none

inductive Error where
  /-- The last byte has only one digit. -/
  | oddLength
  /-- The number of digits is not the expected one. -/
  | wrongLength
  /-- The byte at this position after the marker is no digit. -/
  | badDigit (byte : UInt8) (position : Nat)
deriving DecidableEq

def unmarked : Bytes → Bytes
  | 48 :: 120 :: rest => rest
  | 48 :: 88 :: rest => rest
  | other => other

/-- The bytes of a digit string that starts at `position`; the first non-digit is the error. -/
def bytesOf (position : Nat) : Bytes → Except Error Bytes
  | [] => .ok []
  | [_] => .error .oddLength
  | high :: low :: rest =>
    match digitValue? high, digitValue? low with
    | none, _ => .error (.badDigit high position)
    | some _, none => .error (.badDigit low (position + 1))
    | some h, some l =>
      match bytesOf (position + 2) rest with
      | .error e => .error e
      | .ok bytes => .ok ((h * 16 + l) :: bytes)

def read (text : Bytes) : Except Error Bytes :=
  let digits := unmarked text
  if digits.length % 2 = 1 then .error .oddLength else bytesOf 0 digits

def readFixed (size : Nat) (text : Bytes) : Except Error (FixedBytes size) :=
  if (unmarked text).length % 2 = 1 then .error .oddLength
  else if (unmarked text).length ≠ 2 * size then .error .wrongLength
  else
    match bytesOf 0 (unmarked text) with
    | .error e => .error e
    | .ok bytes =>
      match FixedBytes.ofBytes? size bytes with
      | none => .error .wrongLength
      | some b => .ok b

/-- A byte read as a Latin-1 character, written the way error texts quote characters. -/
def quotedByte (byte : UInt8) : String :=
  let quoted :=
    match byte with
    | 0 => ['\\', '0']
    | 9 => ['\\', 't']
    | 10 => ['\\', 'n']
    | 13 => ['\\', 'r']
    | 39 => ['\\', '\'']
    | 92 => ['\\', '\\']
    | _ =>
      if byte < 32 ∨ (127 ≤ byte ∧ byte ≤ 160) ∨ byte = 173 then
        ['\\', 'u', '\x7b'] ++ Nat.toDigits 16 byte.toNat ++ ['\x7d']
      else [Char.ofNat byte.toNat]
  String.ofList (['\''] ++ quoted ++ ['\''])

def Error.message : Error → String
  | .oddLength => "odd number of digits"
  | .wrongLength => "invalid string length"
  | .badDigit byte position =>
    "invalid character " ++ quotedByte byte ++ " at position " ++ toString position

end EvmTrace.Hex

import EvmTrace.Bytes

set_option autoImplicit false

namespace EvmTrace

abbrev Word := BitVec 256

namespace Word

def size : Nat := Nat.pow 2 256

/-- The number that a byte string denotes, most significant byte first. -/
def natOfBytes (bytes : Bytes) : Nat :=
  bytes.foldl (fun total byte => total * 256 + byte.toNat) 0

def ofBytes (bytes : Bytes) : Word :=
  BitVec.ofNat 256 (natOfBytes bytes)

/-- The word held by a 32-byte topic. -/
def ofHash (topic : Hash) : Word :=
  ofBytes topic.bytes

def decimal (w : Word) : String :=
  toString w.toNat

/-- The shortest hexadecimal text of a word, lower case after `0x`. -/
def hex (w : Word) : String :=
  String.ofList ('0' :: 'x' :: Nat.toDigits 16 w.toNat)

/-- The value of a digit: `0` to `9`, then the letters of either case from ten on. -/
def digitValue? (c : Char) : Option Nat :=
  if '0' ≤ c ∧ c ≤ '9' then some (c.toNat - '0'.toNat)
  else if 'a' ≤ c ∧ c ≤ 'z' then some (c.toNat - 'a'.toNat + 10)
  else if 'A' ≤ c ∧ c ≤ 'Z' then some (c.toNat - 'A'.toNat + 10)
  else none

/-- The number that digits of a base denote after the digits of `total`; `_` is skipped. -/
def accumulate (base : Nat) (total : Nat) : List Char → Option Nat
  | [] => some total
  | '_' :: rest => accumulate base total rest
  | c :: rest =>
    match digitValue? c with
    | none => none
    | some digit => if digit < base then accumulate base (total * base + digit) rest else none

/-- The base that a text names by its marker, and its digits. -/
def splitBase : List Char → Nat × List Char
  | '0' :: 'x' :: rest => (16, rest)
  | '0' :: 'X' :: rest => (16, rest)
  | '0' :: 'o' :: rest => (8, rest)
  | '0' :: 'O' :: rest => (8, rest)
  | '0' :: 'b' :: rest => (2, rest)
  | '0' :: 'B' :: rest => (2, rest)
  | digits => (10, digits)

/-- Reads a word in the base that its marker names; no digits at all denote zero. -/
def read? (text : String) : Option Word :=
  let (base, digits) := splitBase text.toList
  match accumulate base 0 digits with
  | none => none
  | some n => if n < size then some (BitVec.ofNat 256 n) else none

end Word

end EvmTrace

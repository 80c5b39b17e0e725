import EvmTrace.Bytes

/-!
Texts: their encoding as UTF-8, their parts between separators, and their lines. Decoding goes
symbol by symbol, so that a byte string which is no text as a whole can still be read around its bad
bytes. A line ends with a line feed, which may follow a carriage return; what comes after the last
line feed is a line of its own unless it is empty.
-/

set_option autoImplicit false

namespace EvmTrace.Text

/-- A character, or a byte that is no part of an encoded one. -/
abbrev Symbol := Option Char

def encode (text : String) : Bytes :=
  text.toList.flatMap String.utf8EncodeChar

/-- The character whose encoding starts a byte string. -/
def firstChar? (bytes : Bytes) : Option Char :=
  ByteArray.utf8DecodeChar? ⟨(bytes.take 4).toArray⟩ 0

/-- The symbols of a byte string after its first `skip` bytes. -/
def symbolsAfter (skip : Nat) : Bytes → List Symbol
  | [] => []
  | byte :: rest =>
    match skip with
    | skip + 1 => symbolsAfter skip rest
    | 0 =>
      match firstChar? (byte :: rest) with
      | some c => some c :: symbolsAfter (c.utf8Size - 1) rest
      | none => none :: symbolsAfter 0 rest

/-- The symbols of a byte string. -/
def symbols (bytes : Bytes) : List Symbol :=
  symbolsAfter 0 bytes

def decode? (bytes : Bytes) : Option String :=
  ((symbols bytes).mapM id).map String.ofList

/-- The parts of a text whose first part begins with the reversed characters `part`. -/
def splitAfter (separator : Char) (part : List Char) : List Char → List (List Char)
  | [] => [part.reverse]
  | c :: rest =>
    if c = separator then part.reverse :: splitAfter separator [] rest
    else splitAfter separator (c :: part) rest

/-- The parts of a text between its separators, one more than there are separators. -/
def split (separator : Char) (text : String) : List String :=
  (splitAfter separator [] text.toList).map String.ofList

/-- A line, last character first, without the carriage return that precedes its line feed. -/
def withoutReturn : List Char → List Char
  | '\r' :: line => line
  | line => line

/-- The lines of a text whose first line begins with the reversed characters `line`. -/
def linesAfter (line : List Char) : List Char → List (List Char)
  | [] => if line.isEmpty then [] else [line.reverse]
  | '\n' :: rest => (withoutReturn line).reverse :: linesAfter [] rest
  | c :: rest => linesAfter (c :: line) rest

/-- The lines of a text. -/
def lines (text : String) : List String :=
  (linesAfter [] text.toList).map String.ofList

end EvmTrace.Text

import EvmTrace.Json

set_option autoImplicit false

namespace EvmTrace.Json

/-- The way a character is written inside quotes. -/
def escape (c : Char) : List Char :=
  match c with
  | '"' => ['\\', '"']
  | '\\' => ['\\', '\\']
  | '\x08' => ['\\', 'b']
  | '\x0c' => ['\\', 'f']
  | '\n' => ['\\', 'n']
  | '\r' => ['\\', 'r']
  | '\t' => ['\\', 't']
  | _ =>
    if c < ' ' then
      ['\\', 'u', '0', '0', Nat.digitChar (c.toNat / 16), Nat.digitChar (c.toNat % 16)]
    else [c]

def quote (text : String) : List Char :=
  '"' :: (text.toList.flatMap escape ++ ['"'])

def commaSeparated (texts : List (List Char)) : List Char :=
  (texts.intersperse [',']).flatten

mutual

def print : Json → List Char
  | .null => "null".toList
  | .bool value => (if value then "true" else "false").toList
  | .int value => (toString value).toList
  | .real negative significand exponent =>
    ((if negative then "-" else "") ++ toString significand ++ "e" ++ toString exponent).toList
  | .string value => quote value
  | .array items => '[' :: (commaSeparated (printItems items) ++ [']'])
  | .object members => '\x7b' :: (commaSeparated (printMembers members) ++ ['\x7d'])

def printItems : List Json → List (List Char)
  | [] => []
  | item :: rest => print item :: printItems rest

def printMembers : List (String × Json) → List (List Char)
  | [] => []
  | (name, value) :: rest => (quote name ++ ':' :: print value) :: printMembers rest

end

end EvmTrace.Json

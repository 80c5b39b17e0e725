import EvmTrace.Json.Draft

/-!
Reading JSON values from text. Arrays and objects may nest 127 deep, the members of an object come
in the order of their names, and of two members with one name the later one counts.
-/

set_option autoImplicit false

namespace EvmTrace.Json

/-- Puts a member in its place among members in the order of their names, or in place of one. -/
def insertMember (name : String) (value : Json) : List (String × Json) → List (String × Json)
  | [] => [(name, value)]
  | (key, old) :: rest =>
    if name < key then (name, value) :: (key, old) :: rest
    else if name = key then (name, value) :: rest
    else (key, old) :: insertMember name value rest

/-- Members in the order of their names, the last one of each name. -/
def sortMembers (members : List (String × Json)) : List (String × Json) :=
  members.foldl (fun sorted member => insertMember member.1 member.2 sorted) []

mutual

/-- The value of a draft that nests at most `depth` deep. -/
def ofDraft? (depth : Nat) : Draft → Option Json
  | .null => some .null
  | .bool value => some (.bool value)
  | .number numeral => numeral.value?
  | .quoted text => text.map .string
  | .array items => if depth = 0 then none else (ofItems? (depth - 1) items).map .array
  | .object members =>
    if depth = 0 then none
    else (ofMembers? (depth - 1) members).map fun known => .object (sortMembers known)

def ofItems? (depth : Nat) : List Draft → Option (List Json)
  | [] => some []
  | item :: rest =>
    match ofDraft? depth item, ofItems? depth rest with
    | some value, some values => some (value :: values)
    | _, _ => none

/-- The members of an object, in the order of the text. -/
def ofMembers? (depth : Nat) : List (Option String × Draft) → Option (List (String × Json))
  | [] => some []
  | (key, item) :: rest =>
    match key, ofDraft? depth item, ofMembers? depth rest with
    | some name, some value, some values => some ((name, value) :: values)
    | _, _, _ => none

end

/-- The number of arrays and objects that may lie inside each other. -/
def depthLimit : Nat := 127

def readSymbols? (text : List Text.Symbol) : Option Json :=
  (Draft.read? text).bind (ofDraft? depthLimit)

def read? (text : String) : Option Json :=
  readSymbols? (text.toList.map some)

end EvmTrace.Json

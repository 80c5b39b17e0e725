import EvmTrace.Decode

/-!
Records read from JSON values. A record is an object with its fields as members, in any order and
among others, or an array of its fields in the order of their declaration.

Of an object the first bad member is the error, and a missing field only if every member is good.
-/

set_option autoImplicit false

namespace EvmTrace

structure Field (α : Type) where
  name : String
  decode : Decoder α
  /-- The value of the field in an object without it, if it may be absent there. -/
  default : Option α
  /-- Whether an array may end before the field. -/
  omittable : Bool

namespace Field

variable {α : Type}

def required (name : String) (decode : Decoder α) : Field α :=
  ⟨name, decode, none, false⟩

/-- A field with a value of its own when it is absent. -/
def defaulted (name : String) (decode : Decoder α) (value : α) : Field α :=
  ⟨name, decode, some value, true⟩

/-- A field that may be null, or absent from an object. -/
def nullable (name : String) (decode : Decoder α) : Field (Option α) :=
  ⟨name, Decode.optional decode, some none, false⟩

/-- The field's value, from the value that its name has. -/
def fetch (field : Field α) : Option Json → Except DecodeError α
  | some value => field.decode value
  | none =>
    match field.default with
    | some value => .ok value
    | none => .error (.missingField field.name)

end Field

/-- The fields of a record in the order of their declaration, and what is made of their values. -/
inductive Shape : Type → Type 1 where
  | make {β : Type} (value : β) : Shape β
  | field {α β : Type} (before : Shape (α → β)) (next : Field α) : Shape β

namespace Shape

/-- What the order of the members needs to know about a field. -/
structure Declared where
  name : String
  check : Json → Except DecodeError Unit
  omittable : Bool

def declare {α : Type} (field : Field α) : Declared :=
  ⟨field.name, fun value => (field.decode value).map fun _ => (), field.omittable⟩

def declared {β : Type} : Shape β → List Declared
  | .make _ => []
  | .field before next => before.declared ++ [declare next]

/-- The record whose fields have the values that their names have. -/
def build {β : Type} (values : String → Option Json) : Shape β → Except DecodeError β
  | .make value => .ok value
  | .field before next =>
    match before.build values with
    | .error e => .error e
    | .ok record =>
      match next.fetch (values next.name) with
      | .error e => .error e
      | .ok value => .ok (record value)

/-- The error of the first bad member, among those that are fields. -/
def checkMembers (fields : List Declared) : List (String × Json) → Except DecodeError Unit
  | [] => .ok ()
  | (name, value) :: rest =>
    match fields.find? fun known => known.name = name with
    | none => checkMembers fields rest
    | some known =>
      match known.check value with
      | .error e => .error e
      | .ok () => checkMembers fields rest

/-- The error of the first bad item, or of the number of items. -/
def checkItems : List Declared → List Json → Except DecodeError Unit
  | [], [] => .ok ()
  | [], _ :: _ => .error .invalidLength
  | next :: later, [] =>
    if next.omittable then checkItems later [] else .error .invalidLength
  | next :: later, item :: rest =>
    match next.check item with
    | .error e => .error e
    | .ok () => checkItems later rest

def ofMembers {β : Type} (shape : Shape β) (members : List (String × Json)) :
    Except DecodeError β :=
  match checkMembers shape.declared members with
  | .error e => .error e
  | .ok () => shape.build fun name => Json.lookup name members

def ofItems {β : Type} (shape : Shape β) (items : List Json) : Except DecodeError β :=
  match checkItems shape.declared items with
  | .error e => .error e
  | .ok () =>
    shape.build fun name => Json.lookup name ((shape.declared.map (·.name)).zip items)

def decode {β : Type} (shape : Shape β) : Decoder β
  | .object members => shape.ofMembers members
  | .array items => shape.ofItems items
  | _ => .error .invalidType

end Shape

end EvmTrace

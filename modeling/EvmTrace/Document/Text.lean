import EvmTrace.Document
import EvmTrace.Json.Draft
import EvmTrace.Json.Printer

/-!
Documents as JSON text. A document is written with a line for each field, indented by two spaces.
It is read from an object that has each field once, whatever else it holds, or from an array of
the texts of all fields.
-/

set_option autoImplicit false

namespace EvmTrace.Document

/-- The line of a field, without what separates it from the next. -/
def printField (name text : String) : List Char :=
  ' ' :: ' ' :: (Json.quote name ++ ':' :: ' ' :: Json.quote text)

def joinLines (lines : List (List Char)) : List Char :=
  (lines.intersperse [',', '\n']).flatten

def print (document : Document) : String :=
  String.ofList
    ('\x7b' :: '\n' :: (joinLines (List.zipWith printField fieldNames document.fieldTexts) ++
      ['\n', '\x7d']))

/-- The texts of the fields among the members of an object, each of which may come once. -/
def fieldsOf? : List (Option String × Json.Draft) → Option (List (String × String))
  | [] => some []
  | (none, _) :: _ => none
  | (some name, value) :: rest =>
    match fieldsOf? rest with
    | none => none
    | some fields =>
      if name ∈ fieldNames then
        match value with
        | .quoted (some text) =>
          if fields.any fun field => field.1 = name then none else some ((name, text) :: fields)
        | _ => none
      else some fields

def itemText? : Json.Draft → Option String
  | .quoted text => text
  | _ => none

def ofDraft? : Json.Draft → Option Document
  | .object members =>
    match fieldsOf? members with
    | none => none
    | some fields => (fieldNames.mapM fun name => fields.lookup name).bind ofTexts?
  | .array items => (items.mapM itemText?).bind ofTexts?
  | _ => none

def ofBytes? (content : Bytes) : Option Document :=
  (Json.Draft.read? (Text.symbols content)).bind ofDraft?

end EvmTrace.Document

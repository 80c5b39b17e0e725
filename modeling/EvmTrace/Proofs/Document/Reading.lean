import EvmTrace.Document.Text
import EvmTrace.Proofs.Json.Quoted
import EvmTrace.Proofs.Text.Joined
import EvmTrace.Proofs.Text.Utf8
import Mathlib.Data.List.Basic
import Mathlib.Data.List.Nodup

set_option autoImplicit false

namespace EvmTrace.Document

open Json (Token Draft)

def fieldTokens (field : String × String) : List Token :=
  [.quoted (some field.1), .colon, .quoted (some field.2)]

def tokens (fields : List (String × String)) : List Token :=
  [Token.comma].intercalate (fields.map fieldTokens)

/-- The member of an object that a field is read as. -/
def member (field : String × String) : Option String × Draft :=
  (some field.1, .quoted (some field.2))

theorem tokens_cons_cons (first second : String × String) (rest : List (String × String)) :
    tokens (first :: second :: rest) =
      fieldTokens first ++ ([.comma] ++ tokens (second :: rest)) := by
  simp [tokens, List.intercalate_cons_cons]

theorem joinLines_cons_cons (first second : List Char) (rest : List (List Char)) :
    joinLines (first :: second :: rest) =
      first ++ ([',', '\n'] ++ joinLines (second :: rest)) := by
  simp [joinLines]

theorem run?_printField (before : List Token) (field : String × String) :
    Token.run? ⟨before, .between⟩ ((printField field.1 field.2).map some) =
      some ⟨(fieldTokens field).reverse ++ before, .between⟩ := by
  have indented : Token.run? ⟨before, .between⟩ [some ' ', some ' '] =
      some ⟨before, .between⟩ := rfl
  have name := Token.run?_quote before field.1
  have divided : Token.run? ⟨.quoted (some field.1) :: before, .between⟩ [some ':', some ' '] =
      some ⟨.colon :: .quoted (some field.1) :: before, .between⟩ := rfl
  have text := Token.run?_quote (.colon :: .quoted (some field.1) :: before) field.2
  have written : (printField field.1 field.2).map some =
      [some ' ', some ' '] ++ ((Json.quote field.1).map some ++
        ([some ':', some ' '] ++ (Json.quote field.2).map some)) := by
    simp [printField]
  rw [written, Token.run?_append, indented, Option.bind_some, Token.run?_append, name,
    Option.bind_some, Token.run?_append, divided, Option.bind_some, text]
  rfl

theorem run?_joinLines (before : List Token) (fields : List (String × String)) :
    Token.run? ⟨before, .between⟩
      ((joinLines (fields.map fun field => printField field.1 field.2)).map some) =
        some ⟨(tokens fields).reverse ++ before, .between⟩ := by
  match fields with
  | [] => rfl
  | [only] => simpa [joinLines, tokens] using run?_printField before only
  | first :: second :: rest =>
      have line := run?_printField before first
      have comma : Token.run? ⟨(fieldTokens first).reverse ++ before, .between⟩
          ([',', '\n'].map some) =
            some ⟨.comma :: ((fieldTokens first).reverse ++ before), .between⟩ := rfl
      have later := run?_joinLines (.comma :: ((fieldTokens first).reverse ++ before))
        (second :: rest)
      rw [List.map_cons] at later
      rw [List.map_cons, List.map_cons, joinLines_cons_cons, List.map_append, List.map_append,
        Token.run?_append, line, Option.bind_some, Token.run?_append, comma, Option.bind_some,
        later, tokens_cons_cons]
      simp

/-- The tokens of fields are read as members, whatever is read of the object so far. -/
theorem run?_tokens (done : List (Option String × Draft)) (first : String × String)
    (rest : List (String × String)) :
    Draft.run? ⟨[.members done], .key⟩ (tokens (first :: rest)) =
      some ⟨[.members (((first :: rest).map member).reverse ++ done)], .commaOrEnd⟩ := by
  induction rest generalizing done first with
  | nil => rfl
  | cons second rest ih =>
      have field : Draft.run? ⟨[.members done], .key⟩ (fieldTokens first) =
          some ⟨[.members (member first :: done)], .commaOrEnd⟩ := rfl
      have comma : Draft.run? ⟨[.members (member first :: done)], .commaOrEnd⟩ [.comma] =
          some ⟨[.members (member first :: done)], .key⟩ := rfl
      rw [tokens_cons_cons, Draft.run?_append, field, Option.bind_some, Draft.run?_append, comma,
        Option.bind_some, ih]
      simp

/-- At the beginning of an object a key may come, as it must behind a comma. -/
theorem run?_first_tokens (first : String × String) (rest : List (String × String)) :
    Draft.run? ⟨[.members []], .keyOrEnd⟩ (tokens (first :: rest)) =
      Draft.run? ⟨[.members []], .key⟩ (tokens (first :: rest)) := by
  cases rest with
  | nil => rfl
  | cons second rest =>
      rw [tokens_cons_cons]
      rfl

theorem ofTokens?_object (first : String × String) (rest : List (String × String)) :
    Draft.ofTokens? (.openObject :: (tokens (first :: rest) ++ [.closeObject])) =
      some (.object ((first :: rest).map member)) := by
  have body := run?_tokens [] first rest
  have closed : ∀ members,
      Draft.run? ⟨[.members members], .commaOrEnd⟩ [.closeObject] =
        some ⟨[], .nothing (.object members.reverse)⟩ := fun _ => rfl
  have all : Draft.run? ⟨[], .value⟩ (.openObject :: (tokens (first :: rest) ++ [.closeObject])) =
      some ⟨[], .nothing (.object ((first :: rest).map member))⟩ := by
    change Draft.run? ⟨[.members []], .keyOrEnd⟩ (tokens (first :: rest) ++ [.closeObject]) = _
    rw [Draft.run?_append, run?_first_tokens, body, Option.bind_some, closed]
    simp
  rw [Draft.ofTokens?, all]

theorem fieldsOf?_members (fields : List (String × String))
    (known : ∀ field ∈ fields, field.1 ∈ fieldNames) (distinct : (fields.map Prod.fst).Nodup) :
    fieldsOf? (fields.map member) = some fields := by
  induction fields with
  | nil => rfl
  | cons field rest ih =>
      rw [List.map_cons, List.nodup_cons] at distinct
      have later := ih (fun other inside => known other (List.mem_cons_of_mem field inside))
        distinct.2
      have named := known field List.mem_cons_self
      have new : (rest.any fun other => other.1 = field.1) = false := by
        rw [List.any_eq_false]
        intro other inside same
        exact distinct.1 (List.mem_map.mpr ⟨other, inside, by simpa using same⟩)
      simp [fieldsOf?, member, later, named, new]

theorem lookup_of_mem (fields : List (String × String)) (distinct : (fields.map Prod.fst).Nodup)
    (field : String × String) (inside : field ∈ fields) :
    fields.lookup field.1 = some field.2 := by
  induction fields with
  | nil => cases inside
  | cons first rest ih =>
      rw [List.map_cons, List.nodup_cons] at distinct
      rcases List.mem_cons.mp inside with rfl | later
      · exact List.lookup_cons_self
      · have apart : field.1 ≠ first.1 := fun same =>
          distinct.1 (List.mem_map.mpr ⟨field, later, same⟩)
        rw [List.lookup_cons, beq_eq_false_iff_ne.mpr apart]
        exact ih distinct.2 later

def fields (document : Document) : List (String × String) :=
  fieldNames.zip document.fieldTexts

theorem length_fieldTexts (document : Document) :
    document.fieldTexts.length = fieldNames.length := rfl

theorem fields_names (document : Document) : document.fields.map Prod.fst = fieldNames :=
  List.map_fst_zip (Nat.le_of_eq document.length_fieldTexts.symm)

theorem fields_texts (document : Document) : document.fields.map Prod.snd = document.fieldTexts :=
  List.map_snd_zip (Nat.le_of_eq document.length_fieldTexts)

theorem fieldNames_nodup : fieldNames.Nodup := by decide

theorem ofDraft?_fields (document : Document) :
    ofDraft? (.object (document.fields.map member)) = some document := by
  have distinct : (document.fields.map Prod.fst).Nodup := by
    rw [fields_names]
    exact fieldNames_nodup
  have known : ∀ field ∈ document.fields, field.1 ∈ fieldNames := by
    intro field inside
    rw [← fields_names document]
    exact List.mem_map_of_mem inside
  have texts : (fieldNames.mapM fun name => document.fields.lookup name) =
      some document.fieldTexts := by
    rw [← fields_names document, List.mapM_map, ← fields_texts document]
    exact mapM_eq_some document.fields fun field inside =>
      lookup_of_mem document.fields distinct field inside
  simp [ofDraft?, fieldsOf?_members document.fields known distinct, texts,
    ofTexts?_fieldTexts]

theorem scan?_print (document : Document) :
    Token.scan? (document.print.toList.map some) =
      some (.openObject :: (tokens document.fields ++ [.closeObject])) := by
  have opened : Token.run? ⟨[], .between⟩ (['\x7b', '\n'].map some) =
      some ⟨[.openObject], .between⟩ := rfl
  have body := run?_joinLines [.openObject] document.fields
  have closed : ∀ read, Token.run? ⟨read, .between⟩ (['\n', '\x7d'].map some) =
      some ⟨.closeObject :: read, .between⟩ := fun _ => rfl
  have printed : document.print.toList =
      ['\x7b', '\n'] ++ (joinLines (document.fields.map fun field => printField field.1 field.2) ++
        ['\n', '\x7d']) := by
    simp [print, fields, List.zip, List.map_zipWith]
  rw [Token.scan?, printed, List.map_append, List.map_append, Token.run?_append, opened,
    Option.bind_some, Token.run?_append, body, Option.bind_some, closed, Option.bind_some]
  simp [Token.finish?]

/-- A document is read from its own text. -/
theorem ofBytes?_print (document : Document) :
    ofBytes? (Text.encode document.print) = some document := by
  have object := ofTokens?_object ("version", document.version) document.fields.tail
  rw [ofBytes?, Text.symbols_encode, Draft.read?, scan?_print, Option.bind_some]
  rw [show document.fields = ("version", document.version) :: document.fields.tail from rfl, object,
    Option.bind_some]
  exact ofDraft?_fields document

end EvmTrace.Document

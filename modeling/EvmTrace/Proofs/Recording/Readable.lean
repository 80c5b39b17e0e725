import EvmTrace.Proofs.Disk.Storing
import EvmTrace.Recording

set_option autoImplicit false

namespace EvmTrace

namespace Decode

theorem exists_items_iff {α : Type} (decode : Decoder α) (values : List Json) :
    (∃ read, items decode values = .ok read) ↔ ∀ value ∈ values, ∃ read, decode value = .ok read := by
  induction values with
  | nil => simp [items]
  | cons value rest ih =>
      rw [List.forall_mem_cons, ← ih, items]
      cases first : decode value with
      | error e => simp
      | ok read => cases later : items decode rest <;> simp

theorem exists_list_iff {α : Type} (decode : Decoder α) (value : Json) :
    (∃ read, list decode value = .ok read) ↔
      ∃ values, value = .array values ∧ ∀ item ∈ values, ∃ read, decode item = .ok read := by
  cases value with
  | array values => simp [list, exists_items_iff]
  | _ => simp [list]

end Decode

/-- Members of which a transaction is read: an array of events, if there are any, and metadata. -/
structure Transaction.Readable (members : List (String × Json)) : Prop where
  events : ∀ value, Json.lookup "events" members = some value →
    ∃ items, value = .array items ∧ ∀ item ∈ items, ∃ event, Event.decode item = .ok event
  metadata : ∃ metadata, Metadata.shape.ofMembers members = .ok metadata

theorem Transaction.exists_decode_iff (value : Json) :
    (∃ transaction, decode value = .ok transaction) ↔
      ∃ members, value = .object members ∧ Readable members := by
  cases value with
  | object members =>
      simp only [Json.object.injEq, exists_eq_left', decode]
      have events : (∃ events, decodeEvents (Json.lookup "events" members) = .ok events) ↔
          ∀ value, Json.lookup "events" members = some value →
            ∃ items, value = .array items ∧ ∀ item ∈ items, ∃ event, Event.decode item = .ok event := by
        cases Json.lookup "events" members with
        | none => simp [decodeEvents]
        | some value => simp [decodeEvents, Decode.exists_list_iff]
      constructor
      · rintro ⟨transaction, read⟩
        split at read
        · cases read
        · rename_i list eventsRead
          split at read
          · cases read
          · rename_i metadata metadataRead
            exact ⟨events.mp ⟨list, eventsRead⟩, metadata, metadataRead⟩
      · rintro ⟨each, metadata, metadataRead⟩
        obtain ⟨list, eventsRead⟩ := events.mpr each
        exact ⟨{ metadata, events := list }, by simp only [eventsRead, metadataRead]⟩
  | _ => simp [decode]

namespace Recording

/-- The values of the transactions, if a JSON value has the form of a recording. -/
def values? : Json → Option (List Json)
  | .object members => some [.object members]
  | .array values => some values
  | _ => none

/-- A file holds the text of a recording in which each transaction is read. -/
def Readable (tree : FileTree) (path : String) : Prop :=
  ∃ content text json values, tree.contents path = .ok content ∧
    Text.decode? content = some text ∧ Json.read? text = some json ∧ values? json = some values ∧
    ∀ value ∈ values, ∃ members, value = .object members ∧ Transaction.Readable members

theorem exists_readTransactions_iff (values : List Json) (position : Nat) :
    (∃ transactions, readTransactions position values = .ok transactions) ↔
      ∀ value ∈ values, ∃ members, value = .object members ∧ Transaction.Readable members := by
  induction values generalizing position with
  | nil => simp [readTransactions]
  | cons value rest ih =>
      rw [List.forall_mem_cons, ← ih (position + 1), ← Transaction.exists_decode_iff,
        readTransactions]
      cases first : Transaction.decode value with
      | error e => simp
      | ok transaction => cases later : readTransactions (position + 1) rest <;> simp

theorem ofJson_eq (json : Json) : ofJson json =
    match values? json with
    | none => .error .notTransactions
    | some values => readTransactions 0 values := by
  cases json <;> rfl

theorem load_apply (path : String) (tree : FileTree) :
    (load path : StateM FileTree _) tree =
      (match tree.contents path with
        | .error reason => .error (.unreadable reason)
        | .ok content => ofBytes content, tree) := by
  rw [load, FileTree.bind_apply, FileTree.contents_apply]
  cases tree.contents path <;> rfl

theorem exists_load_iff (path : String) (tree : FileTree) :
    (∃ transactions, ((load path : StateM FileTree _) tree).1 = .ok transactions) ↔
      Readable tree path := by
  rw [load_apply, Readable]
  cases found : tree.contents path with
  | error reason => simp
  | ok content =>
      simp only [Except.ok.injEq, exists_and_left, exists_eq_left', ofBytes]
      cases decoded : Text.decode? content with
      | none => simp
      | some text =>
          simp only [Option.some.injEq, exists_eq_left']
          cases parsed : Json.read? text with
          | none => simp
          | some json =>
              simp only [Option.some.injEq, exists_eq_left', ofJson_eq]
              cases listed : values? json with
              | none => simp
              | some values => simp [exists_readTransactions_iff]

end Recording

end EvmTrace

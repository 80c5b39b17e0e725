import EvmTrace.Proofs.Trace.Codec
import EvmTrace.Recording

set_option autoImplicit false

namespace EvmTrace

open Decode
open Json (ReorderedItems ReorderedMembers)

namespace Event

/-- The members of an event, its kind among them. -/
def members (event : Event) : List (String × Json) :=
  ("type", .string event.kind) :: event.fields

/-- What is read of the fields of an event is a record of its kind. -/
theorem exists_shape (event : Event) :
    ∃ (β : Type) (shape : Shape β) (record : β) (make : β → Event),
      shape.Writes event.fields record ∧ ("type" :: shape.names).Nodup ∧ make record = event ∧
        ∀ json, decodeFields event.kind json = (shape.decode json).map make := by
  cases event with
  | step taken =>
      exact ⟨Step, Step.shape, taken, .step, taken.writes, by decide, rfl,
        fun json => by simp [decodeFields, kind]⟩
  | enter call =>
      exact ⟨Call, Call.shape .empty, call, .enter, call.writes .empty,
        by rw [Call.names_eq]; decide, rfl, fun json => by simp [decodeFields, kind]⟩
  | exit depth output =>
      have fields : exitShape.Writes _ _ :=
        .field (.field (.make _) (reads_count depth)) (reads_bytes output)
      refine ⟨Event, exitShape, .exit depth output, id, fields.of_eq rfl rfl, by decide, rfl, ?_⟩
      intro json
      cases read : exitShape.decode json <;> simp [decodeFields, kind, read, Except.map]
  | log emitted =>
      exact ⟨Log, Log.shape, emitted, .log, emitted.writes, by decide, rfl,
        fun json => by simp [decodeFields, kind]⟩

theorem reads_object (event : Event) : Reads decode (.object event.members) event := by
  obtain ⟨β, shape, record, make, writes, distinct, made, decoded⟩ := event.exists_shape
  intro json same
  cases same with
  | @object _ others all each order =>
      have single : (all.map Prod.fst).Nodup := by
        rw [← (order.map Prod.fst).nodup_iff, each.names, members, List.map_cons,
          ← writes.names_eq]
        exact distinct
      cases each with
      | cons first later =>
          cases first
          have kind := Json.lookup_of_mem single (order.mem_iff.mp List.mem_cons_self)
          have read := writes.ofMembers later
            (fun member inside => order.mem_iff.mp (List.mem_cons_of_mem _ inside)) single
          rw [decode, kind]
          simp only [decoded, Shape.decode, read, Except.map, made]

theorem reads_array (event : Event) :
    Reads decode (.array (event.members.map Prod.snd)) event := by
  obtain ⟨β, shape, record, make, writes, distinct, made, decoded⟩ := event.exists_shape
  intro json same
  cases same with
  | array each =>
      cases each with
      | cons first later =>
          cases first
          have read := writes.ofItems (List.nodup_cons.mp distinct).2 later
          rw [decode]
          simp only [decoded, Shape.decode, read, Except.map, made]

end Event

namespace Transaction

def members (transaction : Transaction) : List (String × Json) :=
  ("events", .array (transaction.events.map Event.toJson)) :: transaction.metadata.members

def toJson (transaction : Transaction) : Json := .object transaction.members

theorem reads (transaction : Transaction) : Reads decode transaction.toJson transaction := by
  have distinct : ("events" :: Metadata.shape.names).Nodup := by decide
  intro json same
  cases same with
  | @object _ others all each order =>
      have single : (all.map Prod.fst).Nodup := by
        rw [← (order.map Prod.fst).nodup_iff, each.names, members, List.map_cons,
          ← transaction.metadata.writes.names_eq]
        exact distinct
      cases each with
      | cons first later =>
          have present := Json.lookup_of_mem single (order.mem_iff.mp List.mem_cons_self)
          have events := reads_list (fun event _ => event.reads_object) _ first
          have metadata := transaction.metadata.writes.ofMembers later
            (fun member inside => order.mem_iff.mp (List.mem_cons_of_mem _ inside)) single
          rw [decode, present, decodeEvents, events]
          simp only [metadata]

end Transaction

namespace Recording

theorem readTransactions_of_reordered {transactions : List Transaction} {values : List Json}
    (same : ReorderedItems (transactions.map Transaction.toJson) values) (position : Nat) :
    readTransactions position values = .ok transactions := by
  induction transactions generalizing values position with
  | nil =>
      cases same
      rfl
  | cons transaction rest ih =>
      cases same with
      | cons first later =>
          have read := transaction.reads _ first
          have readLater := ih later (position + 1)
          rw [readTransactions, read]
          simp only [readLater]

theorem reads_array (transactions : List Transaction) :
    Reads ofJson (.array (transactions.map Transaction.toJson)) transactions := by
  intro json same
  cases same with
  | array each => exact readTransactions_of_reordered each 0

end Recording

/-- Each value is read from the members that it has and from the array of their values. -/
def ReadsBothForms {α : Type} (decode : Decoder α) (members : α → List (String × Json)) : Prop :=
  ∀ value, Reads decode (.object (members value)) value ∧
    Reads decode (.array ((members value).map Prod.snd)) value

theorem Shape.readsBothForms {β : Type} {shape : Shape β} {members : β → List (String × Json)}
    (writes : ∀ record, shape.Writes (members record) record) (distinct : shape.names.Nodup) :
    ReadsBothForms shape.decode members :=
  fun record => ⟨(writes record).reads_object distinct, (writes record).reads_array distinct⟩

/--
A recording is read from the array of its transactions, each an object with the members of its
metadata and the array of its events, whatever the order of the members in all of these. Every event,
call, step, log, tagged log, placed call, transfer and metadata is read from its members, in any
order, and from the array of its fields in the order of their declaration; that of an event begins
with its kind.
-/
theorem recordings_and_their_parts_are_read :
    (∀ transactions : List Transaction,
      Reads Recording.ofJson (.array (transactions.map Transaction.toJson)) transactions) ∧
    ReadsBothForms Event.decode Event.members ∧
    (∀ payload, ReadsBothForms (Call.shape payload).decode Call.members) ∧
    ReadsBothForms Step.shape.decode Step.members ∧
    ReadsBothForms Log.shape.decode Log.members ∧
    ReadsBothForms PlacedCall.shape.decode PlacedCall.members ∧
    ReadsBothForms TaggedLog.shape.decode TaggedLog.members ∧
    ReadsBothForms Transfer.shape.decode Transfer.members ∧
    ReadsBothForms Metadata.shape.decode Metadata.members := by
  refine ⟨Recording.reads_array, fun event => ⟨event.reads_object, event.reads_array⟩,
    fun payload => Shape.readsBothForms (Call.writes payload) (Call.names_nodup payload),
    Shape.readsBothForms Step.writes ?_, Shape.readsBothForms Log.writes ?_,
    Shape.readsBothForms PlacedCall.writes ?_, Shape.readsBothForms TaggedLog.writes ?_,
    Shape.readsBothForms Transfer.writes ?_, Shape.readsBothForms Metadata.writes ?_⟩
  all_goals decide

/-- The events stand last, and the members of the transaction and of its call in reverse order. -/
theorem recording_in_reverse_order_is_read :
    let call := Call.plain .create2 0 (.zero 20) (.zero 20)
    let metadata : Metadata :=
      { block := 1, hash := .zero 32, sender := .zero 20, recipient := none, value := 1000
        gasPrice := 0, gasUsed := 21000 }
    let transaction : Transaction := { metadata, events := [.enter call, .exit 0 [1, 255]] }
    let entered := Json.object (Event.enter call).members.reverse
    let members := ("events", .array [entered, (Event.exit 0 [1, 255]).toJson]) :: metadata.members
    let json := Json.array [.object members.reverse]
    (Json.array [transaction.toJson]).Reordered json ∧ Recording.ofJson json = .ok [transaction] := by
  intro call metadata transaction entered members json
  have event : (Event.enter call).toJson.Reordered entered :=
    .object (.refl _) (List.reverse_perm _).symm
  have events : ReorderedMembers transaction.members members :=
    .cons (.array (.cons event (.cons (.refl _) .nil))) (.refl _)
  have reordered : (Json.array [transaction.toJson]).Reordered json :=
    .array (.cons (.object events (List.reverse_perm _).symm) .nil)
  exact ⟨reordered, recordings_and_their_parts_are_read.1 [transaction] json reordered⟩

end EvmTrace

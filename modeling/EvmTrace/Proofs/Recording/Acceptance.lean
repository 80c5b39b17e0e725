import EvmTrace.Proofs.Decode.Undeclared
import EvmTrace.Proofs.Recording.Readable
import Mathlib.Data.List.Forall2

set_option autoImplicit false

namespace EvmTrace

/-- The least position of a value that is refused, with the reason. -/
structure FirstRefused (Refused : Json → DecodeError → Prop) (values : List Json) (position : Nat)
    (reason : DecodeError) : Prop where
  refused : ∃ value, values[position]? = some value ∧ Refused value reason
  least : ∀ earlier < position, ∀ value e, values[earlier]? = some value → ¬Refused value e

theorem not_firstRefused_nil (Refused : Json → DecodeError → Prop) (position : Nat)
    (reason : DecodeError) : ¬FirstRefused Refused [] position reason := by
  rintro ⟨⟨value, present, _⟩, _⟩
  cases present

theorem firstRefused_cons_iff (Refused : Json → DecodeError → Prop) (value : Json)
    (rest : List Json) (position : Nat) (reason : DecodeError) :
    FirstRefused Refused (value :: rest) position reason ↔
      (position = 0 ∧ Refused value reason) ∨
        ∃ later, position = later + 1 ∧ (∀ e, ¬Refused value e) ∧
          FirstRefused Refused rest later reason := by
  constructor
  · rintro ⟨⟨bad, present, refused⟩, least⟩
    cases position with
    | zero =>
        cases present
        exact .inl ⟨rfl, refused⟩
    | succ later =>
        refine .inr ⟨later, rfl, fun e => least 0 (Nat.succ_pos later) value e rfl,
          ⟨bad, present, refused⟩, fun earlier before => ?_⟩
        exact least (earlier + 1) (Nat.succ_lt_succ before)
  · rintro (⟨rfl, refused⟩ | ⟨later, rfl, good, ⟨bad, present, refused⟩, least⟩)
    · exact ⟨⟨value, rfl, refused⟩, fun earlier before => absurd before (Nat.not_lt_zero earlier)⟩
    · refine ⟨⟨bad, present, refused⟩, fun earlier before other e there => ?_⟩
      cases earlier with
      | zero =>
          cases there
          exact good e
      | succ earlier => exact least earlier (Nat.lt_of_succ_lt_succ before) other e there

namespace Decode

variable {α : Type} (decode : Decoder α)

theorem items_eq_ok_iff (values : List Json) (read : List α) :
    items decode values = .ok read ↔
      List.Forall₂ (fun value result => decode value = .ok result) values read := by
  induction values generalizing read with
  | nil => simp [items, eq_comm]
  | cons value rest ih =>
      rw [items, List.forall₂_cons_left_iff]
      cases first : decode value with
      | error e => simp
      | ok result =>
          cases later : items decode rest with
          | error e => simp [← ih, later]
          | ok results => simp [← ih, later, eq_comm]

theorem items_eq_error_iff (values : List Json) (reason : DecodeError) :
    items decode values = .error reason ↔
      ∃ position, FirstRefused (fun value e => decode value = .error e) values position reason := by
  induction values with
  | nil => simp [items, not_firstRefused_nil]
  | cons value rest ih =>
      simp only [items, firstRefused_cons_iff]
      cases first : decode value with
      | error e => simp
      | ok result => cases later : items decode rest <;> simp [← ih, later]

end Decode

namespace Transaction

/-- Events are read from a value, if there is one: from an array each in its place. -/
inductive EventsReadAs : Option Json → List Event → Prop
  | absent : EventsReadAs none []
  | array {items : List Json} {events : List Event}
      (each : List.Forall₂ (fun item event => Event.decode item = .ok event) items events) :
      EventsReadAs (some (.array items)) events

/-- No events are read from a value: it is no array, or an item of it is refused. -/
inductive EventsRefused : Option Json → DecodeError → Prop
  | form {value : Json} (other : ∀ items, value ≠ .array items) :
      EventsRefused (some value) .invalidType
  | item {items : List Json} {position : Nat} {reason : DecodeError}
      (first : FirstRefused (fun item e => Event.decode item = .error e) items position reason) :
      EventsRefused (some (.array items)) reason

/-- A transaction is read from an object: its events from one member, its metadata from the whole. -/
inductive ReadAs : Json → Transaction → Prop
  | object {members : List (String × Json)} {transaction : Transaction}
      (events : EventsReadAs (Json.lookup "events" members) transaction.events)
      (metadata : Metadata.shape.decode (.object members) = .ok transaction.metadata) :
      ReadAs (.object members) transaction

/-- No transaction is read from a value: the metadata is what is wrong if the events are read. -/
inductive Refused : Json → DecodeError → Prop
  | form {value : Json} (other : ∀ members, value ≠ .object members) : Refused value .invalidType
  | events {members : List (String × Json)} {reason : DecodeError}
      (bad : EventsRefused (Json.lookup "events" members) reason) : Refused (.object members) reason
  | metadata {members : List (String × Json)} {events : List Event} {reason : DecodeError}
      (good : EventsReadAs (Json.lookup "events" members) events)
      (bad : Metadata.shape.decode (.object members) = .error reason) :
      Refused (.object members) reason

theorem decodeEvents_eq_ok_iff (value : Option Json) (events : List Event) :
    decodeEvents value = .ok events ↔ EventsReadAs value events := by
  constructor
  · intro read
    cases value with
    | none =>
        cases read
        exact .absent
    | some value =>
        cases value with
        | array items => exact .array ((Decode.items_eq_ok_iff _ _ _).mp read)
        | _ => cases read
  · intro read
    cases read with
    | absent => rfl
    | array each => exact (Decode.items_eq_ok_iff _ _ _).mpr each

theorem decodeEvents_eq_error_iff (value : Option Json) (reason : DecodeError) :
    decodeEvents value = .error reason ↔ EventsRefused value reason := by
  constructor
  · intro refused
    cases value with
    | none => cases refused
    | some value =>
        cases value with
        | array items =>
            obtain ⟨position, first⟩ := (Decode.items_eq_error_iff _ _ _).mp refused
            exact .item first
        | _ =>
            cases refused
            exact .form (by simp)
  · intro refused
    cases refused with
    | @form value other =>
        cases value with
        | array items => exact absurd rfl (other items)
        | _ => rfl
    | item first => exact (Decode.items_eq_error_iff _ _ _).mpr ⟨_, first⟩

theorem decode_eq_ok_iff (value : Json) (transaction : Transaction) :
    decode value = .ok transaction ↔ ReadAs value transaction := by
  constructor
  · intro read
    cases value with
    | object members =>
        rw [decode] at read
        split at read
        · cases read
        · rename_i events eventsRead
          split at read
          · cases read
          · rename_i metadata metadataRead
            cases read
            exact .object ((decodeEvents_eq_ok_iff _ _).mp eventsRead) metadataRead
    | _ => cases read
  · intro read
    cases read with
    | @object members transaction events metadata =>
        have metadataRead : Metadata.shape.ofMembers members = .ok transaction.metadata := metadata
        rw [decode, (decodeEvents_eq_ok_iff _ _).mpr events, metadataRead]

theorem decode_eq_error_iff (value : Json) (reason : DecodeError) :
    decode value = .error reason ↔ Refused value reason := by
  constructor
  · intro refused
    cases value with
    | object members =>
        rw [decode] at refused
        split at refused
        · rename_i eventsRefused
          cases refused
          exact .events ((decodeEvents_eq_error_iff _ _).mp eventsRefused)
        · rename_i events eventsRead
          split at refused
          · rename_i metadataRefused
            cases refused
            exact .metadata ((decodeEvents_eq_ok_iff _ _).mp eventsRead) metadataRefused
          · cases refused
    | _ =>
        cases refused
        exact .form (by simp)
  · intro refused
    cases refused with
    | form other =>
        cases value with
        | object members => exact absurd rfl (other members)
        | _ => rfl
    | events bad => rw [decode, (decodeEvents_eq_error_iff _ _).mpr bad]
    | @metadata members events reason good bad =>
        have metadataRefused : Metadata.shape.ofMembers members = .error reason := bad
        rw [decode, (decodeEvents_eq_ok_iff _ _).mpr good, metadataRefused]

end Transaction

namespace Recording

theorem readTransactions_eq_ok_iff (values : List Json) (start : Nat)
    (transactions : List Transaction) :
    readTransactions start values = .ok transactions ↔
      List.Forall₂ Transaction.ReadAs values transactions := by
  induction values generalizing start transactions with
  | nil => simp [readTransactions, eq_comm]
  | cons value rest ih =>
      simp only [readTransactions, List.forall₂_cons_left_iff, ← Transaction.decode_eq_ok_iff,
        ← ih (start + 1)]
      cases first : Transaction.decode value with
      | error e => simp
      | ok transaction => cases later : readTransactions (start + 1) rest <;> simp [eq_comm]

theorem readTransactions_eq_error_iff (values : List Json) (start : Nat) (e : Error) :
    readTransactions start values = .error e ↔
      ∃ position reason, FirstRefused Transaction.Refused values position reason ∧
        e = .badTransaction (start + position) reason := by
  induction values generalizing start with
  | nil => simp [readTransactions, not_firstRefused_nil]
  | cons value rest ih =>
      simp only [firstRefused_cons_iff, ← Transaction.decode_eq_error_iff]
      cases first : Transaction.decode value with
      | error reason => simp [readTransactions, first, eq_comm]
      | ok transaction =>
          -- What is read here only moves the first refused position one further.
          have passed : readTransactions start (value :: rest) = .error e ↔
              readTransactions (start + 1) rest = .error e := by
            rw [readTransactions, first]
            cases readTransactions (start + 1) rest <;> simp
          rw [passed, ih (start + 1)]
          constructor
          · rintro ⟨position, reason, refused, rfl⟩
            refine ⟨position + 1, reason, .inr ⟨position, rfl, by simp, refused⟩, ?_⟩
            rw [Nat.add_assoc, Nat.add_comm 1]
          · rintro ⟨_, reason, ⟨_, refused⟩ | ⟨position, rfl, _, refused⟩, rfl⟩
            · cases refused
            · exact ⟨position, reason, refused, by rw [Nat.add_assoc, Nat.add_comm 1]⟩

/--
A recording is read exactly if it is an object, or an array of objects, in each of which all events
and the metadata are read. Its transactions are then those of the objects in order, each with all its
events in order and with the metadata of the object, which is that of the object without the events.
If it is not read, the error names the first transaction that is refused and says why, the events
coming before the metadata. An object is read as the array that holds it alone.
-/
theorem recordings_are_read_whole_or_refused (json : Json) :
    ((∃ transactions, ofJson json = .ok transactions) ↔
      ∃ values, values? json = some values ∧
        ∀ value ∈ values, ∃ members, value = .object members ∧ Transaction.Readable members) ∧
    (∀ transactions, ofJson json = .ok transactions ↔
      ∃ values, values? json = some values ∧
        List.Forall₂ Transaction.ReadAs values transactions) ∧
    (∀ e, ofJson json = .error e ↔
      (values? json = none ∧ e = .notTransactions ∧
        e.message = formatMessage "Recording must be a JSON object or array") ∨
      ∃ values position reason, values? json = some values ∧
        FirstRefused Transaction.Refused values position reason ∧
        e = .badTransaction position reason ∧
        e.message =
          formatMessage ("Transaction " ++ toString position ++ ": " ++ reason.message)) ∧
    ∀ members, ofJson (.object members) = ofJson (.array [.object members]) ∧
      Metadata.shape.decode (.object (members.filter fun member => member.1 ≠ "events")) =
        Metadata.shape.decode (.object members) := by
  refine ⟨?_, fun transactions => ?_, fun e => ?_, fun members => ⟨rfl, ?_⟩⟩
  · rw [ofJson_eq]
    cases values? json with
    | none => simp
    | some values => simp [exists_readTransactions_iff]
  · rw [ofJson_eq]
    cases values? json with
    | none => simp
    | some values => simp [readTransactions_eq_ok_iff]
  · rw [ofJson_eq]
    cases values? json with
    | none =>
        simp only [Except.error.injEq, reduceCtorEq, false_and, exists_false, or_false, true_and]
        constructor
        · rintro rfl
          exact ⟨rfl, rfl⟩
        · rintro ⟨rfl, _⟩
          rfl
    | some values =>
        simp only [readTransactions_eq_error_iff, Nat.zero_add, reduceCtorEq, false_and, false_or,
          Option.some.injEq, exists_and_left, exists_eq_left']
        constructor
        · rintro ⟨position, reason, refused, rfl⟩
          exact ⟨position, reason, refused, rfl, rfl⟩
        · rintro ⟨position, reason, refused, rfl, _⟩
          exact ⟨position, reason, refused, rfl⟩
  · have plain : "events" ∉ Metadata.shape.names := by decide
    exact (Metadata.shape.ofMembers_of_widened (.filter members plain) (fun _ inside => inside)
      fun _ _ _ _ same => same).symm

/-- A bad event comes before bad metadata of its transaction and before the next transaction. -/
example :
    let event := Json.object [("type", .string "call")]
    let transaction := Json.object [("blockNumber", .null), ("events", .array [event])]
    ofJson (.array [transaction, .null]) =
      .error (.badTransaction 0 (.unknownVariant "call" Event.kinds)) := by
  rfl

end Recording

end EvmTrace

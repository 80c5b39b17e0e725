import EvmTrace.Proofs.Decode.Undeclared
import EvmTrace.Recording
import Mathlib.Data.List.Forall2

set_option autoImplicit false

namespace EvmTrace

theorem Decode.items_congr {α : Type} {decode : Decoder α} {values others : List Json}
    (each : List.Forall₂ (fun value other => decode other = decode value) values others) :
    items decode others = items decode values := by
  induction each with
  | nil => rfl
  | cons first _ ih => rw [items, items, first, ih]

namespace Event

/-- The names of the fields of an event of a named kind. -/
def fieldNames (kind : String) : List String :=
  if kind = "op" then Step.shape.names
  else if kind = "enter" then (Call.shape .empty).names
  else if kind = "exit" then exitShape.names
  else if kind = "log" then Log.shape.names
  else []

/-- The names from which an event with the given members is read. -/
def declaredNames (members : List (String × Json)) : List String :=
  match Json.lookup "type" members with
  | some (.string kind) => "type" :: fieldNames kind
  | _ => ["type"]

/-- What stands for an event, and the same with more members. -/
inductive Widened : Json → Json → Prop
  | same (value : Json) : Widened value value
  | object {members others : List (String × Json)}
      (wide : Json.Widened (declaredNames members) Json.Same members others) :
      Widened (.object members) (.object others)

variable {members others : List (String × Json)}

theorem decodeFields_of_widened {kind : String}
    (wide : Json.Widened ("type" :: fieldNames kind) Json.Same members others) :
    decodeFields kind (.object others) = decodeFields kind (.object members) := by
  have alike : ∀ {β : Type} (shape : Shape β), fieldNames kind = shape.names →
      shape.decode (.object others) = shape.decode (.object members) := by
    intro β shape names
    refine shape.ofMembers_of_widened wide (fun name inside => ?_) fun _ _ _ _ same => same
    rw [names]
    exact List.mem_cons_of_mem _ inside
  rw [decodeFields, decodeFields]
  split_ifs with op enter exit log
  · rw [alike Step.shape (by rw [fieldNames, if_pos op])]
  · rw [alike (Call.shape .empty) (by rw [fieldNames, if_neg op, if_pos enter])]
  · rw [alike exitShape (by rw [fieldNames, if_neg op, if_neg enter, if_pos exit])]
  · rw [alike Log.shape (by rw [fieldNames, if_neg op, if_neg enter, if_neg exit, if_pos log])]
  · rfl

theorem decode_of_widened {value other : Json} (widened : Widened value other) :
    decode other = decode value := by
  cases widened with
  | same => rfl
  | @object members others wide =>
      have kept : "type" ∈ declaredNames members := by
        rw [declaredNames]
        split <;> exact List.mem_cons_self
      rw [decode, decode, wide.lookup_eq kept fun _ _ same => same]
      cases kind : Json.lookup "type" members with
      | none => rfl
      | some named =>
          cases named with
          | string text =>
              rw [declaredNames, kind] at wide
              exact decodeFields_of_widened wide
          | _ => rfl

end Event

namespace Transaction

/-- The names from which a transaction is read. -/
def declaredNames : List String :=
  "events" :: Metadata.shape.names

/-- The value of a member, and the same but for more members in the events of a transaction. -/
inductive Alters : String → Json → Json → Prop
  | same (name : String) (value : Json) : Alters name value value
  | events {items others : List Json} (each : List.Forall₂ Event.Widened items others) :
      Alters "events" (.array items) (.array others)

/-- What stands for a transaction, and the same with more members in it and in its events. -/
inductive Widened : Json → Json → Prop
  | same (value : Json) : Widened value value
  | object {members others : List (String × Json)}
      (wide : Json.Widened declaredNames Alters members others) :
      Widened (.object members) (.object others)

theorem decodeEvents_of_altered {value other : Option Json}
    (altered : Option.Rel (Alters "events") value other) :
    decodeEvents other = decodeEvents value := by
  cases altered with
  | none => rfl
  | some alters =>
      cases alters with
      | same => rfl
      | events each =>
          exact Decode.items_congr (each.imp fun _ _ widened => Event.decode_of_widened widened)

theorem decode_of_widened {value other : Json} (widened : Widened value other) :
    decode other = decode value := by
  cases widened with
  | same => rfl
  | @object members others wide =>
      have named : "events" ∈ declaredNames := List.mem_cons_self
      have events := decodeEvents_of_altered (wide.lookup named)
      have metadata : Metadata.shape.ofMembers others = Metadata.shape.ofMembers members := by
        -- Only the events may have other values, and no field of the metadata has their name.
        refine Metadata.shape.ofMembers_of_widened wide
          (fun name inside => List.mem_cons_of_mem _ inside) fun name inside value other alters => ?_
        cases alters with
        | same => rfl
        | events => exact absurd inside (by decide)
      rw [decode, decode, events, metadata]

end Transaction

namespace Recording

/-- A recording, and the same with more members in its transactions and in their events. -/
inductive Widened : Json → Json → Prop
  | transaction {value other : Json} (wide : Transaction.Widened value other) : Widened value other
  | array {values others : List Json} (each : List.Forall₂ Transaction.Widened values others) :
      Widened (.array values) (.array others)

theorem readTransactions_of_widened {values others : List Json}
    (each : List.Forall₂ Transaction.Widened values others) (position : Nat) :
    readTransactions position others = readTransactions position values := by
  induction each generalizing position with
  | nil => rfl
  | cons first _ ih =>
      rw [readTransactions, readTransactions, Transaction.decode_of_widened first,
        ih (position + 1)]

theorem ofJson_of_widened {json other : Json} (widened : Widened json other) :
    ofJson other = ofJson json := by
  cases widened with
  | transaction wide =>
      cases wide with
      | same => rfl
      | object wide => exact readTransactions_of_widened (.cons (.object wide) .nil) 0
  | array each => exact readTransactions_of_widened each 0

end Recording

end EvmTrace

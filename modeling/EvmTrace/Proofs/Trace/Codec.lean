import EvmTrace.Proofs.Decode.Records

set_option autoImplicit false

namespace EvmTrace

open Decode

theorem Step.writes (step : Step) : Step.shape.Writes step.members step := by
  have fields : Step.shape.Writes _ _ :=
    .field (.field (.field (.field (.field (.field (.make _)
      (reads_uint64 step.pc)) (reads_count step.depth)) (reads_text step.opcode))
      (reads_uint64 step.gas)) (reads_uint64 step.cost)) (reads_text step.output)
  exact fields.of_eq rfl rfl

theorem Call.writes (payload : Payload) (call : Call) :
    (Call.shape payload).Writes call.members call := by
  have fields : (Call.shape payload).Writes _ _ :=
    .field (.field (.field (.field (.field (.field (.field (.field (.field (.make _)
      (reads_count call.index)) (call.kind.reads payload)) (reads_count call.depth))
      (reads_fixed call.sender)) (reads_fixed call.recipient)) (reads_word call.value))
      (reads_uint64 call.gas)) (reads_bytes call.input)) (reads_bytes call.output)
  exact fields.of_eq rfl rfl

theorem Log.writes (log : Log) : Log.shape.Writes log.members log := by
  have fields : Log.shape.Writes _ _ :=
    .field (.field (.field (.make _) (reads_fixed log.address))
      (reads_list fun topic (_ : topic ∈ log.topics) => reads_fixed topic)) (reads_bytes log.data)
  exact fields.of_eq rfl rfl

theorem TaggedLog.writes (log : TaggedLog) : TaggedLog.shape.Writes log.members log := by
  have fields : TaggedLog.shape.Writes _ _ :=
    .field (.field (.field (.field (.field (.make _) (reads_fixed log.address))
      (reads_list fun topic (_ : topic ∈ log.topics) => reads_fixed topic)) (reads_bytes log.data))
      (reads_optional TokenStandard.reads (fun _ => Json.noConfusion) log.standard))
      (reads_optional TokenFunction.reads (fun _ => Json.noConfusion) log.function)
  exact fields.of_eq rfl rfl

theorem Transfer.writes (transfer : Transfer) :
    Transfer.shape.Writes transfer.members transfer := by
  have fields : Transfer.shape.Writes _ _ :=
    .field (.field (.field (.field (.field (.field (.field (.field (.make _)
      (reads_fixed transfer.sender)) (reads_fixed transfer.recipient))
      (reads_optional reads_fixed Json.ofFixed_ne_null transfer.token))
      (reads_word transfer.value)) (reads_count transfer.depth)) (reads_count transfer.callIndex))
      (reads_path transfer.path)) transfer.kind.reads
  exact fields.of_eq rfl rfl

theorem Metadata.writes (metadata : Metadata) :
    Metadata.shape.Writes metadata.members metadata := by
  have fields : Metadata.shape.Writes _ _ :=
    .field (.field (.field (.field (.field (.field (.field (.make _)
      (reads_uint64 metadata.block)) (reads_fixed metadata.hash)) (reads_fixed metadata.sender))
      (reads_optional reads_fixed Json.ofFixed_ne_null metadata.recipient))
      (reads_word metadata.value)) (reads_word metadata.gasPrice)) (reads_uint64 metadata.gasUsed)
  exact fields.of_eq rfl rfl

theorem Call.names_eq (payload : Payload) : (Call.shape payload).names =
    ["index", "callType", "depth", "from", "to", "value", "gas", "input", "output"] := rfl

theorem Call.names_nodup (payload : Payload) : (Call.shape payload).names.Nodup := by
  rw [Call.names_eq]
  decide

theorem PlacedCall.writes (placed : PlacedCall) :
    PlacedCall.shape.Writes placed.members placed := by
  have fields : PlacedCall.shape.Writes _ _ :=
    .field (.field (.make _)
      ((placed.call.writes .null).reads_object (Call.names_nodup .null))) (reads_path placed.path)
  exact fields.of_eq rfl rfl

end EvmTrace

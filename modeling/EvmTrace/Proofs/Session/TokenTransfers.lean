import EvmTrace.Proofs.Classification
import EvmTrace.Proofs.Session.Course
import Mathlib.Data.List.Forall2

set_option autoImplicit false

namespace EvmTrace

def tokenTransfers (transfers : List Transfer) : List Transfer :=
  transfers.filter fun transfer => transfer.kind ≠ .native

theorem Summary.countTransfers_tokenTransfers {kind : TransferKind} (token : kind ≠ .native)
    (transfers : List Transfer) :
    countTransfers (tokenTransfers transfers) kind = countTransfers transfers kind := by
  rw [countTransfers, countTransfers, tokenTransfers, List.countP_filter]
  apply List.countP_congr
  intro transfer _
  simp only [Bool.and_eq_true, decide_eq_true_eq, and_iff_left_iff_imp]
  rintro rfl
  exact token

def transferLogs (logs : List TaggedLog) : List TaggedLog :=
  logs.filter fun log => log.function = some .transfer

/-- An account is named by the low 20 bytes of a topic. -/
def Address.NamedBy (account : Address) (topic : Option Hash) : Prop :=
  ∃ named, topic = some named ∧ account.bytes = named.bytes.drop 12

/-- A transfer of a token tells what a log reports. -/
structure Transfer.Reports (transfer : Transfer) (log : TaggedLog) : Prop where
  token : transfer.token = some log.address
  sender : transfer.sender.NamedBy log.topics[1]?
  recipient : transfer.recipient.NamedBy log.topics[2]?
  /-- An amount leads the data, and the identity of a token is the last topic. -/
  value :
    transfer.kind = .erc20 ∧ log.standard = some .erc20 ∧ 32 ≤ log.data.length ∧
        transfer.value.toNat = Word.natOfBytes (log.data.take 32) ∨
      transfer.kind = .erc721 ∧ log.standard = some .erc721 ∧
        ∃ topic, log.topics[3]? = some topic ∧
          transfer.value.toNat = Word.natOfBytes topic.bytes

/-- The transfer that is recorded for a log tells what the log reports. -/
theorem reports_of_movement {emitted : Log} {movement : TokenMovement}
    (moves : (TokenEvent.classify emitted.topics emitted.data emitted.address).movement =
      some movement) (call : Option OpenCall) :
    (Session.tokenTransfer movement call).Reports emitted.tagged := by
  obtain ⟨_, standard⟩ := TokenEvent.transfer_of_movement moves
  obtain ⟨sender, recipient, ⟨topics, enough, rfl⟩ | ⟨last, topics, rfl⟩⟩ :=
    TokenEvent.movement_classify moves
  · have value : (Word.ofBytes (emitted.data.take 32)).toNat =
        Word.natOfBytes (emitted.data.take 32) :=
      Word.toNat_ofBytes _ (List.length_take_le _ _)
    rcases standard with ⟨_, standard⟩ | ⟨impossible, _⟩
    · exact ⟨rfl, ⟨sender, congrArg (fun topics => topics[1]?) topics, rfl⟩,
        ⟨recipient, congrArg (fun topics => topics[2]?) topics, rfl⟩,
        .inl ⟨rfl, standard, enough, value⟩⟩
    · cases impossible
  · have value : (Word.ofHash last).toNat = Word.natOfBytes last.bytes :=
      Word.toNat_ofBytes _ (Nat.le_of_eq last.length_bytes)
    rcases standard with ⟨impossible, _⟩ | ⟨_, standard⟩
    · cases impossible
    · exact ⟨rfl, ⟨sender, congrArg (fun topics => topics[1]?) topics, rfl⟩,
        ⟨recipient, congrArg (fun topics => topics[2]?) topics, rfl⟩,
        .inr ⟨rfl, standard, last, congrArg (fun topics => topics[3]?) topics, value⟩⟩

/-- A log and the transfer of its token, if it moves one, are recorded together. -/
theorem reports_log {session : Session} (emitted : Log)
    (reports : List.Forall₂ Transfer.Reports (tokenTransfers session.transfers)
      (transferLogs session.logs)) :
    List.Forall₂ Transfer.Reports (tokenTransfers (session.logged emitted).transfers)
      (transferLogs (session.logged emitted).logs) := by
  have logs : (session.logged emitted).logs = emitted.tagged :: session.logs := rfl
  cases moves : (TokenEvent.classify emitted.topics emitted.data emitted.address).movement with
  | none =>
      have other := TokenEvent.function_of_no_movement moves
      rw [Session.transfers_logged_of_none moves, logs, transferLogs,
        List.filter_cons_of_neg (by simp [Log.tagged, other])]
      exact reports
  | some movement =>
      have transfer := (TokenEvent.transfer_of_movement moves).1
      have token := TokenEvent.kind_ne_native moves
      rw [Session.transfers_logged_of_some moves, logs, tokenTransfers, transferLogs,
        List.filter_cons_of_pos (by simp [Session.tokenTransfer, token]),
        List.filter_cons_of_pos (by simp [Log.tagged, transfer])]
      exact .cons (reports_of_movement moves _) reports

/-- Whatever an event does, the transfers of tokens are those that the logs report. -/
theorem Session.reports_advance {before after : Session} (advance : before.Advance after)
    (reports : List.Forall₂ Transfer.Reports (tokenTransfers before.transfers)
      (transferLogs before.logs)) :
    List.Forall₂ Transfer.Reports (tokenTransfers after.transfers) (transferLogs after.logs) := by
  cases advance with
  | idle steps taint => exact reports
  | exit depth output => exact reports
  | log emitted => exact reports_log emitted reports
  | enter call accepted =>
      have payment : tokenTransfers (before.entered call).transfers =
          tokenTransfers before.transfers := by
        unfold entered
        dsimp only
        split
        · exact List.filter_cons_of_neg (by simp [Session.payment])
        · rfl
      rw [payment]
      exact reports

theorem Session.reports_started (config : Config) :
    List.Forall₂ Transfer.Reports (tokenTransfers (started config).transfers)
      (transferLogs (started config).logs) :=
  .nil

theorem Session.reports_draft {session : Session}
    (reports : List.Forall₂ Transfer.Reports (tokenTransfers session.transfers)
      (transferLogs session.logs)) (metadata : Metadata) :
    List.Forall₂ Transfer.Reports (tokenTransfers (session.draft metadata).transfers)
      (transferLogs (session.draft metadata).logs) := by
  have inOrder := List.forall₂_reverse_iff.mpr reports
  rw [tokenTransfers, transferLogs, ← List.filter_reverse, ← List.filter_reverse] at inOrder
  exact inOrder

namespace Host

/--
The logs of a trace are the logs that were taken since the start of the transaction, tagged with the
token events that they are recognised as. The transfers of tokens are, in the order of the logs and
one by one, what the logs of transfers report: the contract, the standard, the two accounts and the
amount or the identity of the token.
-/
theorem token_transfers_are_those_of_logs {World : Type} {config : Config} {world : World}
    {requests : List (Request World)} {metadata : Metadata} {trace : Trace}
    (closed : (((new config world).run requests).session.close metadata).1 = .ok (some trace)) :
    trace.logs = (sinceStart ((new config world).run requests).past).filterMap Exchange.log? ∧
      List.Forall₂ Transfer.Reports (tokenTransfers trace.transfers) (transferLogs trace.logs) := by
  refine ⟨?_, ?_⟩
  · obtain ⟨active, _, _, rfl⟩ := Session.close_eq_trace_iff.mp closed
    exact ((Kept.run config world requests).recorded active).logs
  · obtain ⟨session, _, reports, rfl⟩ :=
      trace_of_close closed (Session.reports_started config)
        fun _ _ _ => Session.reports_advance
    exact Session.reports_draft reports metadata

/--
A call pays, and three logs have the first topic of a transfer. The second one has too little data
and reports nothing.
-/
theorem token_transfers_of_three_logs :
    let root := { Call.plain .call 0 (.zero 20) (.zero 20) with value := 7 }
    let step : Step := { pc := 0, depth := 1, opcode := "LOG3", gas := 9, cost := 1, output := "" }
    let emitted := fun (topics : List Hash) (data : Bytes) => ({
      address := .zero 20, topics := transferTopic :: .zero 32 :: .zero 32 :: topics, data } : Log)
    let requests : List (Request Unit) :=
      [.start, .enter root, .step step, .log (emitted [] (List.replicate 31 0 ++ [9, 1])),
        .log (emitted [] [1, 2]), .log (emitted [.zero 32] [])]
    let metadata : Metadata :=
      { block := 0, hash := .zero 32, sender := .zero 20, recipient := none, value := 7
        gasPrice := 0, gasUsed := 0 }
    let session := ((new {} ()).run requests).session
    ∃ trace, (session.close metadata).1 = .ok (some trace) ∧
      (trace.transfers.map fun transfer => (transfer.kind, transfer.value)) =
          [(.native, 7), (.erc20, 9), (.erc721, 0)] ∧
      (trace.logs.map fun log => (log.standard, log.function)) =
          [(some .erc20, some .transfer), (none, none), (some .erc721, some .transfer)] ∧
      List.Forall₂ Transfer.Reports (tokenTransfers trace.transfers)
        (transferLogs trace.logs) := by
  intro root step emitted requests metadata session
  have closed : (session.close metadata).1 = .ok (some (session.draft metadata)) :=
    Session.close_eq_trace_iff.mpr
      ⟨by decide +kernel, by decide +kernel, by decide +kernel, rfl⟩
  have recorded :
      ((session.draft metadata).transfers.map fun transfer => (transfer.kind, transfer.value)) =
          [(.native, 7), (.erc20, 9), (.erc721, 0)] ∧
        ((session.draft metadata).logs.map fun log => (log.standard, log.function)) =
          [(some .erc20, some .transfer), (none, none), (some .erc721, some .transfer)] := by
    decide +kernel
  exact ⟨session.draft metadata, closed, recorded.1, recorded.2,
    (token_transfers_are_those_of_logs closed).2⟩

end Host

end EvmTrace

import EvmTrace.Proofs.Session.Isolation
import EvmTrace.Proofs.Session.TokenTransfers

/-!
What the recording of payments decides. No operation reads the transfers of a session, so a session
that does not record payments holds, behind any requests, what one that records them holds without
its payments, and answers the same up to them.
-/

set_option autoImplicit false

namespace EvmTrace

theorem tokenTransfers_payment (call : Call) (path : CallPath) (transfers : List Transfer) :
    tokenTransfers (Session.payment call path :: transfers) = tokenTransfers transfers :=
  List.filter_cons_of_neg (by simp [Session.payment])

theorem tokenTransfers_tokenTransfer {movement : TokenMovement} (token : movement.kind ≠ .native)
    (call : Option OpenCall) (transfers : List Transfer) :
    tokenTransfers (Session.tokenTransfer movement call :: transfers) =
      Session.tokenTransfer movement call :: tokenTransfers transfers :=
  List.filter_cons_of_pos (by simp [Session.tokenTransfer, token])

def Trace.withoutPayments (trace : Trace) : Trace :=
  { trace with transfers := tokenTransfers trace.transfers }

def Summary.withoutPayments (summary : Summary) : Summary :=
  { summary with native := 0 }

def Outcome.withoutPayments : Outcome → Outcome
  | .written summary => .written summary.withoutPayments
  | outcome => outcome

/-- An answer without the payments of the trace or of the numbers that it holds, if any. -/
def Answer.withoutPayments : Answer → Answer
  | .trace result => .trace (result.map (Option.map Trace.withoutPayments))
  | .outcome result => .outcome (result.map Outcome.withoutPayments)
  | answer => answer

/-- The numbers of a trace without payments differ in the number of payments only. -/
theorem Summary.ofTrace_withoutPayments (trace : Trace) :
    Summary.ofTrace trace.withoutPayments = (Summary.ofTrace trace).withoutPayments := by
  have native : Summary.countTransfers (tokenTransfers trace.transfers) .native = 0 := by
    rw [Summary.countTransfers, List.countP_eq_zero]
    intro transfer kept
    simpa [tokenTransfers] using (List.mem_filter.mp kept).2
  simp only [Summary.ofTrace, Summary.withoutPayments, Trace.withoutPayments, native,
    Summary.countTransfers_tokenTransfers, ne_eq, reduceCtorEq, not_false_eq_true]

theorem Outcome.ofWrite_withoutPayments (trace : Trace) (reply : Except Store.Error Unit) :
    Outcome.ofWrite trace.withoutPayments reply = (Outcome.ofWrite trace reply).withoutPayments := by
  cases reply with
  | ok taken => exact congrArg Outcome.written (Summary.ofTrace_withoutPayments trace)
  | error reason => rfl

namespace Session

/-- A session that does not record payments and holds none. -/
def withoutPayments (session : Session) : Session :=
  { session with
    config := { session.config with nativeTransfers := false }
    transfers := tokenTransfers session.transfers }

variable (session : Session)

@[simp] theorem state_withoutPayments : session.withoutPayments.state = session.state := rfl

@[simp] theorem taint_withoutPayments : session.withoutPayments.taint = session.taint := rfl

@[simp] theorem tree_withoutPayments : session.withoutPayments.tree = session.tree := rfl

@[simp] theorem steps_withoutPayments : session.withoutPayments.steps = session.steps := rfl

@[simp] theorem nextIndex_withoutPayments :
    session.withoutPayments.nextIndex = session.nextIndex := rfl

@[simp] theorem obstacle_withoutPayments (operation : Operation) :
    session.withoutPayments.obstacle operation = session.obstacle operation := rfl

@[simp] theorem pays_withoutPayments (call : Call) :
    pays session.withoutPayments.config call = false := rfl

theorem start_withoutPayments :
    session.withoutPayments.start = (session.start.1, session.start.2.withoutPayments) := by
  unfold start
  rw [state_withoutPayments]
  split <;> rfl

theorem step_withoutPayments (step : Step) :
    session.withoutPayments.step step =
      ((session.step step).1, (session.step step).2.withoutPayments) := by
  unfold Session.step
  rw [obstacle_withoutPayments]
  cases session.obstacle .step <;> rfl

/-- A call is taken, refused and numbered as if it paid nothing. -/
theorem enter_withoutPayments (call : Call) :
    session.withoutPayments.enter call =
      ((session.enter call).1, (session.enter call).2.withoutPayments) := by
  unfold enter
  rw [obstacle_withoutPayments]
  cases session.obstacle .enter with
  | some e => rfl
  | none =>
      simp only [tree_withoutPayments, nextIndex_withoutPayments, pays_withoutPayments]
      cases session.tree.enter { call with index := session.nextIndex } with
      | error reason => rfl
      | ok next =>
          dsimp only
          cases pays session.config { call with index := session.nextIndex } with
          | false => rfl
          | true => simp only [withoutPayments, tokenTransfers_payment, Bool.false_eq_true, if_false,
              if_true]

theorem exit_withoutPayments (depth : Nat) (output : Bytes) :
    session.withoutPayments.exit depth output =
      ((session.exit depth output).1, (session.exit depth output).2.withoutPayments) := by
  unfold exit
  rw [obstacle_withoutPayments]
  cases session.obstacle .exit <;> rfl

/-- The transfer of a token is no payment. -/
theorem log_withoutPayments (log : Log) :
    session.withoutPayments.log log =
      ((session.log log).1, (session.log log).2.withoutPayments) := by
  unfold Session.log
  rw [obstacle_withoutPayments]
  cases session.obstacle .log with
  | some e => rfl
  | none =>
      dsimp only
      cases moves : (TokenEvent.classify log.topics log.data log.address).movement with
      | none => rfl
      | some movement =>
          simp only [withoutPayments,
            tokenTransfers_tokenTransfer (TokenEvent.kind_ne_native moves)]

theorem close_withoutPayments (metadata : Metadata) :
    session.withoutPayments.close metadata =
      ((session.close metadata).1.map (Option.map Trace.withoutPayments),
        (session.close metadata).2.withoutPayments) := by
  have transfers : session.withoutPayments.transfers.reverse =
      tokenTransfers session.transfers.reverse := by
    simp only [withoutPayments, tokenTransfers, List.filter_reverse]
  unfold close
  simp only [state_withoutPayments, taint_withoutPayments, tree_withoutPayments,
    steps_withoutPayments, transfers]
  split
  · rfl
  · split
    · rfl
    · split <;> rfl

end Session

variable {World : Type}

/--
A sink that a request calls replies to a trace without its payments, in a world of its own, as it
does to the trace with them.
-/
def Request.RepliesAlike (world silentWorld : World) (handed : List Trace) :
    Request World → Prop
  | .conclude _ sink => ∀ trace ∈ handed,
    (sink.write trace.withoutPayments silentWorld).1 = (sink.write trace world).1
  | _ => True

namespace Session

/-- What becomes of a transaction that is closed does not depend on its payments. -/
theorem serve_conclude_withoutPayments (session : Session) (world silentWorld : World)
    (metadata : Metadata) (sink : Sink (StateM World)) :
    let reply := session.serve world (.conclude metadata sink)
    let silent := session.withoutPayments.serve silentWorld (.conclude metadata sink)
    silent.session = reply.session.withoutPayments ∧
      silent.handed = reply.handed.map Trace.withoutPayments ∧
      ((Request.conclude metadata sink).RepliesAlike world silentWorld reply.handed →
        silent.answer = reply.answer.withoutPayments) := by
  intro reply silent
  simp only [reply, silent, serve_conclude, close_withoutPayments]
  generalize (session.close metadata).2 = after
  cases (session.close metadata).1 with
  | error e => cases e <;> exact ⟨rfl, rfl, fun _ => rfl⟩
  | ok trace =>
      cases trace with
      | none => exact ⟨rfl, rfl, fun _ => rfl⟩
      | some trace =>
          simp only [Except.map, Option.map_some, Sink.noting_settle]
          refine ⟨rfl, rfl, ?_⟩
          intro alike
          rw [alike trace List.mem_cons_self, Outcome.ofWrite_withoutPayments]
          rfl

/--
A session without payments serves a request as the session with them does: behind the request it is
still that session without payments, a sink is called with the same trace without payments, and the
answer is the same without payments unless the sink itself tells the two traces apart.
-/
theorem serve_withoutPayments (session : Session) (world silentWorld : World)
    (request : Request World) :
    let reply := session.serve world request
    let silent := session.withoutPayments.serve silentWorld request
    silent.session = reply.session.withoutPayments ∧
      silent.handed = reply.handed.map Trace.withoutPayments ∧
      (request.RepliesAlike world silentWorld reply.handed →
        silent.answer = reply.answer.withoutPayments) := by
  intro reply silent
  cases request with
  | start =>
      simp only [reply, silent, serve, start_withoutPayments]
      exact ⟨trivial, rfl, fun _ => rfl⟩
  | step step =>
      simp only [reply, silent, serve, step_withoutPayments]
      exact ⟨trivial, rfl, fun _ => rfl⟩
  | enter call =>
      simp only [reply, silent, serve, enter_withoutPayments]
      exact ⟨trivial, rfl, fun _ => rfl⟩
  | exit depth output =>
      simp only [reply, silent, serve, exit_withoutPayments]
      exact ⟨trivial, rfl, fun _ => rfl⟩
  | log log =>
      simp only [reply, silent, serve, log_withoutPayments]
      exact ⟨trivial, rfl, fun _ => rfl⟩
  | close metadata =>
      simp only [reply, silent, serve, close_withoutPayments]
      exact ⟨trivial, rfl, fun _ => rfl⟩
  | conclude metadata sink =>
      exact serve_conclude_withoutPayments session world silentWorld metadata sink
  | abort => exact ⟨rfl, rfl, fun _ => rfl⟩
  | reset => exact ⟨rfl, rfl, fun _ => rfl⟩

end Session

namespace Host

theorem run_withoutPayments {host silent : Host World}
    (same : silent.session = host.session.withoutPayments) (requests : List (Request World)) :
    (silent.run requests).session = (host.run requests).session.withoutPayments := by
  induction requests generalizing host silent with
  | nil => exact same
  | cons request rest ih =>
      apply ih
      rw [serve, same]
      exact (host.session.serve_withoutPayments host.world silent.world request).1

/--
Whether payments are recorded decides nothing else. After any requests, one session that records
payments and one that does not are in the same state, up to the payments that the first one holds,
and they show the same of themselves. A further request is answered the same: with the same error,
index, token event or end, and with the same trace but for its payments, all other transfers in
their order; the trace that a sink is called with is the same but for its payments; and the numbers
of a trace that was taken differ in the number of payments only. The sinks may work in different
worlds; what they themselves reply is what the end of a transaction answers.
-/
theorem recording_payments_decides_nothing_else (maxDepth : Nat) (world silentWorld : World)
    (requests : List (Request World)) (request : Request World) :
    let host := (new { maxDepth, nativeTransfers := true } world).run requests
    let silentHost := (new { maxDepth, nativeTransfers := false } silentWorld).run requests
    let reply := host.session.serve host.world request
    let silent := silentHost.session.serve silentHost.world request
    silent.session = reply.session.withoutPayments ∧
      silent.session.observe = reply.session.observe ∧
      silent.handed = reply.handed.map Trace.withoutPayments ∧
      (request.RepliesAlike host.world silentHost.world reply.handed →
        silent.answer = reply.answer.withoutPayments) := by
  intro host silentHost reply silent
  have same : silentHost.session = host.session.withoutPayments := run_withoutPayments rfl requests
  have served := host.session.serve_withoutPayments host.world silentHost.world request
  rw [← same] at served
  obtain ⟨session, handed, answer⟩ := served
  refine ⟨session, ?_, handed, answer⟩
  rw [session]
  rfl

/--
Two calls pay, one of them behind the transfer of a token, and a call is refused in the first
transaction; the second one is written without its two payments.
-/
theorem recording_payments_decides_nothing_else_of_two_transactions :
    let root := { Call.plain .call 0 (.zero 20) (.zero 20) with value := 7 }
    let child := { Call.plain .create 1 (.zero 20) (.zero 20) with value := 8 }
    let skipping := { Call.plain .call 2 (.zero 20) (.zero 20) with value := 9 }
    let step : Step := { pc := 0, depth := 1, opcode := "LOG4", gas := 9, cost := 1, output := "" }
    let emitted : Log :=
      { address := .zero 20, topics := [transferTopic, .zero 32, .zero 32, .zero 32], data := [] }
    let metadata : Metadata :=
      { block := 0, hash := .zero 32, sender := .zero 20, recipient := none, value := 7
        gasPrice := 0, gasUsed := 0 }
    let requests : List (Request (List Trace)) :=
      [.start, .step step, .enter root, .enter skipping, .conclude metadata .memory,
        .start, .step step, .enter root, .log emitted, .enter child]
    let request : Request (List Trace) := .conclude metadata .memory
    let host := (new { maxDepth := 4, nativeTransfers := true } []).run requests
    let silentHost := (new { maxDepth := 4, nativeTransfers := false } []).run requests
    let reply := host.session.serve host.world request
    let silent := silentHost.session.serve silentHost.world request
    request.RepliesAlike host.world silentHost.world reply.handed ∧
      silent.answer = reply.answer.withoutPayments ∧
      (reply.handed.map fun trace => trace.transfers.map Transfer.kind) =
        [[.native, .erc721, .native]] ∧
      (silent.handed.map fun trace => trace.transfers.map Transfer.kind) = [[.erc721]] := by
  intro root child skipping step emitted metadata requests request host silentHost reply silent
  have taken : ∀ trace kept, (Sink.memory.write trace kept).1 = .ok () := fun _ _ => rfl
  have alike : request.RepliesAlike host.world silentHost.world reply.handed :=
    fun _ _ => (taken _ _).trans (taken _ _).symm
  obtain ⟨_, _, _, answer⟩ :=
    recording_payments_decides_nothing_else 4 [] [] requests request
  have kinds : (reply.handed.map fun trace => trace.transfers.map Transfer.kind) =
        [[.native, .erc721, .native]] ∧
      (silent.handed.map fun trace => trace.transfers.map Transfer.kind) = [[.erc721]] := by
    decide +kernel
  exact ⟨alike, answer alike, kinds⟩

end Host

end EvmTrace

import EvmTrace.Proofs.Replay.Tracing

set_option autoImplicit false

namespace EvmTrace

/-- What the replay of a transaction led to. -/
structure Replayed where
  answer : Except Session.Error Outcome
  /-- The state of the session behind the transaction. -/
  state : Session.State
  /-- The traces that the memory has gained. -/
  gained : List Trace
deriving DecidableEq

namespace Session

/-- Replays a transaction and keeps its trace in a memory behind those that it holds already. -/
def replayInto (session : Session) (memory : List Trace) (transaction : Transaction) :
    Replayed × Session × List Trace :=
  let ((answer, after), grown) := session.replay transaction Sink.memory memory
  ({ answer, state := after.state, gained := grown.drop memory.length }, after, grown)

/-- Replays transactions one after the other with one session and one memory. -/
def replayInTurn (session : Session) (memory : List Trace) :
    List Transaction → List Replayed × List Trace
  | [] => ([], memory)
  | transaction :: rest =>
    let (first, after, grown) := session.replayInto memory transaction
    let (others, all) := after.replayInTurn grown rest
    (first :: others, all)

/-- The replay of a transaction with a new session and an empty memory. -/
def replayAlone (config : Config) (transaction : Transaction) : Replayed :=
  ((new config).replayInto [] transaction).1

/-- A transaction that is traced alone is written with its trace, or nothing is kept of it. -/
theorem settle_closing (config : Config) (transaction : Transaction) :
    let settled := Sink.memory.settle (closing config transaction) []
    (∃ trace, settled = (.ok (.written (Summary.ofTrace trace)), [trace])) ∨
      settled = (.ok .skipped, []) ∨
        settled = (.ok (.discarded Outcome.discardReason), []) := by
  intro settled
  rcases closing_cases config transaction with ⟨trace, _, closed⟩ | closed | closed
  · exact .inl ⟨trace, by simp only [settled, closed]; rfl⟩
  · exact .inr (.inl (by simp only [settled, closed]; rfl))
  · exact .inr (.inr (by simp only [settled, closed]; rfl))

variable {config : Config} {session : Session}

/-- Whatever a session and a memory hold, a transaction is closed as with a new session. -/
theorem Sound.replay_memory (sound : Sound config session) (inactive : session.state ≠ .active)
    (transaction : Transaction) (memory : List Trace) :
    ∃ after, Sound config after ∧ after.state = .idle ∧
      session.replay transaction Sink.memory memory =
        let settled := Sink.memory.settle (closing config transaction) []
        ((settled.1, after), memory ++ settled.2) := by
  obtain ⟨after, kept, idle, replayed⟩ := sound.replay inactive transaction Sink.memory
  refine ⟨after, kept, idle, ?_⟩
  rw [replayed]
  rcases closing_cases config transaction with ⟨trace, _, closed⟩ | closed | closed
  · rw [closed]
    rfl
  · rw [closed]
    exact congrArg (Prod.mk _) (List.append_nil memory).symm
  · rw [closed]
    exact congrArg (Prod.mk _) (List.append_nil memory).symm

theorem replayAlone_eq (config : Config) (transaction : Transaction) :
    replayAlone config transaction =
      let settled := Sink.memory.settle (closing config transaction) []
      { answer := settled.1, state := .idle, gained := settled.2 } := by
  have inactive : (new config).state ≠ .active := State.noConfusion
  obtain ⟨after, _, idle, replayed⟩ :=
    (sound_new config).replay_memory inactive transaction []
  rw [replayAlone, replayInto, replayed]
  simp only [idle]
  rfl

/-- A transaction comes to the same end behind others as alone. -/
theorem Sound.replayInto (sound : Sound config session) (inactive : session.state ≠ .active)
    (transaction : Transaction) (memory : List Trace) :
    ∃ after, Sound config after ∧ after.state ≠ .active ∧
      session.replayInto memory transaction =
        (replayAlone config transaction, after,
          memory ++ (replayAlone config transaction).gained) := by
  obtain ⟨after, kept, idle, replayed⟩ := sound.replay_memory inactive transaction memory
  refine ⟨after, kept, by rw [idle]; exact State.noConfusion, ?_⟩
  rw [Session.replayInto, replayed, replayAlone_eq]
  simp only [idle, List.drop_left]

theorem Sound.replayInTurn (sound : Sound config session) (inactive : session.state ≠ .active)
    (memory : List Trace) (transactions : List Transaction) :
    session.replayInTurn memory transactions =
      let alone := transactions.map (replayAlone config)
      (alone, memory ++ alone.flatMap Replayed.gained) := by
  induction transactions generalizing session memory with
  | nil => exact congrArg (Prod.mk _) (List.append_nil memory).symm
  | cons transaction rest ih =>
      obtain ⟨after, kept, inactive, first⟩ := sound.replayInto inactive transaction memory
      rw [Session.replayInTurn, first]
      simp only [ih kept inactive, List.map_cons, List.flatMap_cons, List.append_assoc]

/--
Transactions that are replayed in turn with one session and one memory come, each, to the same end
and add the same traces to the memory as alone with a new session and an empty memory. Each of them
leaves the session idle, and adds its trace if it is written and nothing otherwise; in the end the
memory holds these traces in the order of the transactions. Transactions that are picked in any
order have the results of the picked ones in that order.
-/
theorem transactions_are_independent (config : Config) (transactions : List Transaction) :
    let replayed := transactions.map (replayAlone config)
    (new config).replayInTurn [] transactions =
        (replayed, replayed.flatMap Replayed.gained) ∧
      (∀ transaction, let alone := replayAlone config transaction
        alone.state = .idle ∧
          ((∃ trace, alone.answer = .ok (.written (Summary.ofTrace trace)) ∧
              alone.gained = [trace]) ∨
            (alone.answer = .ok .skipped ∨
                alone.answer = .ok (.discarded Outcome.discardReason)) ∧
              alone.gained = [])) ∧
      ∀ order : List Nat,
        let picked := order.filterMap fun position => replayed[position]?
        (new config).replayInTurn [] (order.filterMap fun position => transactions[position]?) =
          (picked, picked.flatMap Replayed.gained) := by
  intro replayed
  have all := (sound_new config).replayInTurn State.noConfusion []
  refine ⟨all transactions, ?_, ?_⟩
  · intro transaction alone
    have ends := settle_closing config transaction
    simp only [alone, replayAlone_eq]
    refine ⟨trivial, ?_⟩
    rcases ends with ⟨trace, written⟩ | skipped | discarded
    · exact .inl ⟨trace, congrArg Prod.fst written, congrArg Prod.snd written⟩
    · exact .inr ⟨.inl (congrArg Prod.fst skipped), congrArg Prod.snd skipped⟩
    · exact .inr ⟨.inr (congrArg Prod.fst discarded), congrArg Prod.snd discarded⟩
  · intro order picked
    have mapped : (order.filterMap fun position => transactions[position]?).map
        (replayAlone config) = picked := by
      simp only [picked, replayed, List.map_filterMap, List.getElem?_map]
    rw [all, mapped]
    rfl

end Session

end EvmTrace

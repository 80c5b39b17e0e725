import EvmTrace.Proofs.Replay.Ending

set_option autoImplicit false

namespace EvmTrace

/-- What a sink makes of a transaction that was closed. -/
def Sink.receive {m : Type → Type} [Monad m] (sink : Sink m) :
    Except Session.Error (Option Trace) → m Outcome
  | .ok (some trace) => sink.deliver trace
  | .ok none => pure .skipped
  | .error _ => pure (.discarded Outcome.discardReason)

namespace Session

/-- How a transaction is closed if it is traced with a new session. -/
def closing (config : Config) (transaction : Transaction) : Except Error (Option Trace) :=
  (((started config).takeAll transaction.events).close transaction.metadata).1

/-- The trace of a transaction with a new session, if it has one. -/
def traced? (config : Config) (transaction : Transaction) : Option Trace :=
  match ((new config).trace transaction).1 with
  | .ok trace => trace
  | .error _ => none

theorem trace_new (config : Config) (transaction : Transaction) :
    ((new config).trace transaction).1 = closing config transaction := by
  have inactive : (new config).state ≠ .active := State.noConfusion
  have begun : started config = { (new config).clear with state := .active } := by
    rw [started, start_of_inactive inactive]
  rw [trace, start_of_inactive inactive, closing, begun]
  dsimp only
  rw [feed_eq_takeAll ⟨rfl, rfl⟩]

/-- A transaction that is closed has a trace, or no step of it was taken, or a call was refused. -/
theorem closing_cases (config : Config) (transaction : Transaction) :
    (∃ trace, trace.metadata = transaction.metadata ∧
        closing config transaction = .ok (some trace)) ∨
      closing config transaction = .ok none ∨ closing config transaction = .error .tainted := by
  have active : ((started config).takeAll transaction.events).state = .active :=
    takeAll_state _ _
  cases tainted : ((started config).takeAll transaction.events).taint.isSome with
  | true =>
      refine .inr (.inr ?_)
      rw [closing, close_of_tainted active tainted]
  | false =>
      by_cases bare : ((started config).takeAll transaction.events).steps = []
      · refine .inr (.inl ?_)
        rw [closing, close_of_no_step active tainted bare]
      · refine .inl
          ⟨((started config).takeAll transaction.events).draft transaction.metadata, rfl, ?_⟩
        rw [closing, close_of_step active tainted bare]

theorem traced?_eq_some_iff (config : Config) (transaction : Transaction) (trace : Trace) :
    traced? config transaction = some trace ↔ closing config transaction = .ok (some trace) := by
  rw [traced?, trace_new]
  rcases closing_cases config transaction with ⟨_, _, closed⟩ | closed | closed <;> simp [closed]

variable {m : Type → Type} [Monad m] [LawfulMonad m] {config : Config} {session : Session}

theorem conclude_eq_receive (active : session.state = .active) (metadata : Metadata)
    (sink : Sink m) :
    session.conclude metadata sink =
      (fun outcome => (.ok outcome, (session.close metadata).2.reset)) <$>
        sink.receive (session.close metadata).1 := by
  cases tainted : session.taint.isSome with
  | true =>
      rw [conclude_of_tainted active tainted, close_of_tainted active tainted, Sink.receive, map_pure]
  | false =>
      by_cases bare : session.steps = []
      · rw [conclude_of_no_step active tainted bare, close_of_no_step active tainted bare,
          Sink.receive, map_pure]
      · rw [conclude_of_step active tainted bare, close_of_step active tainted bare, Sink.receive]

/-- Whatever a session has traced before, a sink receives what it would from a new session. -/
theorem Sound.replay (sound : Sound config session) (inactive : session.state ≠ .active)
    (transaction : Transaction) (sink : Sink m) :
    ∃ after, Sound config after ∧ after.state = .idle ∧
      session.replay transaction sink =
        (fun outcome => (.ok outcome, after)) <$> sink.receive (closing config transaction) := by
  have begun : Sound config { session.clear with state := .active } :=
    sound.clear.withState .active
  have active := takeAll_start_active inactive transaction.events
  have same : closing config transaction =
      ((session.start.2.takeAll transaction.events).close transaction.metadata).1 := by
    rw [start_of_inactive inactive]
    exact ((sound.alike_started.takeAll transaction.events).close transaction.metadata).1.symm
  refine ⟨((session.start.2.takeAll transaction.events).close transaction.metadata).2.reset,
    ?_, rfl, ?_⟩
  · rw [start_of_inactive inactive]
    exact ((begun.takeAll transaction.events).close transaction.metadata).reset
  · rw [replay_of_inactive inactive, conclude_eq_receive active, same]

theorem answer_replay_new (config : Config) (transaction : Transaction) (sink : Sink m) :
    Prod.fst <$> (new config).replay transaction sink =
      Except.ok <$> sink.receive (closing config transaction) := by
  obtain ⟨after, _, _, replayed⟩ :=
    (sound_new config).replay State.noConfusion transaction sink
  rw [replayed, Functor.map_map]

end Session

/-- What comes of a transaction that is replayed with a new session. -/
structure Ending (World : Type) where
  answer : Except Session.Error Outcome
  /-- The world behind what the sink did in it. -/
  world : World
  /-- The traces that the sink was called with. -/
  handed : List Trace

namespace Session

variable {World : Type}

/-- Replays a transaction with a new session, and notes the traces that the sink is called with. -/
def ending (config : Config) (transaction : Transaction) (sink : Sink (StateM World))
    (world : World) : Ending World :=
  let ((answer, _), world, handed) := (new config).replay transaction sink.noting (world, [])
  { answer, world, handed }

/-- What a sink makes of a transaction that was closed, in a world. -/
def endingOf (sink : Sink (StateM World)) (world : World) :
    Except Error (Option Trace) → Ending World
  | .ok (some trace) =>
    { answer := .ok (.ofWrite trace (sink.write trace world).1)
      world := (sink.write trace world).2, handed := [trace] }
  | .ok none => { answer := .ok .skipped, world, handed := [] }
  | .error _ => { answer := .ok (.discarded Outcome.discardReason), world, handed := [] }

/-- How a transaction is closed decides what comes of it. -/
theorem ending_eq (config : Config) (transaction : Transaction) (sink : Sink (StateM World))
    (world : World) :
    ending config transaction sink world = endingOf sink world (closing config transaction) := by
  obtain ⟨after, _, _, replayed⟩ :=
    (sound_new config).replay State.noConfusion transaction sink.noting
  rw [ending, replayed]
  rcases closing_cases config transaction with ⟨trace, _, closed⟩ | closed | closed
  · simp only [closed, Sink.receive, Functor.map, StateT.map, bind, Sink.noting_deliver]
    rfl
  · rw [closed]
    rfl
  · rw [closed]
    rfl

/-- A transaction is discarded if a call of it was refused. -/
theorem answer_ending_eq_discarded_iff (config : Config) (transaction : Transaction)
    (sink : Sink (StateM World)) (world : World) :
    (ending config transaction sink world).answer = .ok (.discarded Outcome.discardReason) ↔
      ((started config).takeAll transaction.events).taint.isSome = true := by
  have active : ((started config).takeAll transaction.events).state = .active :=
    takeAll_state _ _
  rw [ending_eq, closing]
  cases tainted : ((started config).takeAll transaction.events).taint.isSome with
  | true =>
      rw [close_of_tainted active tainted]
      exact iff_of_true rfl rfl
  | false =>
      refine iff_of_false ?_ Bool.false_ne_true
      by_cases bare : ((started config).takeAll transaction.events).steps = []
      · rw [close_of_no_step active tainted bare]
        simp [endingOf]
      · rw [close_of_step active tainted bare]
        simp only [endingOf, Outcome.ofWrite]
        split <;> simp

end Session

end EvmTrace

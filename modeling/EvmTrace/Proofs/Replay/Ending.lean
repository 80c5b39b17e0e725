import EvmTrace.Proofs.Session.History

set_option autoImplicit false

namespace EvmTrace

namespace Session

/-- A session that takes the events of a transaction refuses one of them only by being tainted. -/
theorem take_of_free {session : Session}
    (free : session.state = .active ∧ session.taint = none) (event : Event) :
    (∃ after, session.take event = (.ok (), after) ∧ after.taint = none) ∨
      ∃ e after, session.take event = (.error e, after) ∧ after.taint ≠ none := by
  have unhindered : ∀ operation, session.obstacle operation = none :=
    fun operation => (obstacle_eq_none_iff session operation).mpr free
  cases event with
  | step step =>
      refine .inl ⟨{ session with steps := step :: session.steps }, ?_, free.2⟩
      rw [take, Session.step, unhindered]
  | enter call =>
      unfold take enter
      rw [unhindered]
      dsimp only
      split
      · exact .inr ⟨_, _, rfl, Option.some_ne_none _⟩
      · exact .inl ⟨_, rfl, free.2⟩
  | exit depth output =>
      refine .inl ⟨{ session with tree := (session.tree.exit depth output).2 }, ?_, free.2⟩
      rw [take, exit, unhindered]
  | log log =>
      unfold take Session.log
      rw [unhindered]
      exact .inl ⟨_, rfl, free.2⟩

theorem takeAll_of_hindered {session : Session}
    (hindered : ¬(session.state = .active ∧ session.taint = none)) (events : List Event) :
    session.takeAll events = session := by
  induction events with
  | nil => rfl
  | cons event rest ih =>
      obtain ⟨e, same⟩ := take_of_hindered hindered event
      rw [takeAll, List.foldl_cons, same]
      exact ih

/-- A session that is not tainted behind some events was not tainted by the first of them. -/
theorem untainted_take_of_takeAll {session : Session} {event : Event} {rest : List Event}
    (untainted : (session.takeAll (event :: rest)).taint = none) :
    (session.take event).2.taint = none := by
  by_contra tainted
  have stays := takeAll_of_hindered (fun free => tainted free.2) rest
  rw [takeAll, List.foldl_cons, ← takeAll, stays] at untainted
  exact tainted untainted

/-- What follows the first event that is not taken makes no difference. -/
theorem feed_eq_takeAll {session : Session}
    (free : session.state = .active ∧ session.taint = none) (events : List Event) :
    session.feed events = session.takeAll events := by
  induction events generalizing session with
  | nil => rfl
  | cons event rest ih =>
      rw [takeAll, List.foldl_cons, feed]
      have state : (session.take event).2.state = session.state := take_state event
      obtain ⟨after, taken, untainted⟩ | ⟨e, after, refused, tainted⟩ := take_of_free free event
      · rw [taken] at state ⊢
        exact ih ⟨state.trans free.1, untainted⟩
      · rw [refused]
        exact (takeAll_of_hindered (fun free => tainted free.2) rest).symm

section Replay

variable {m : Type → Type} [Monad m] [LawfulMonad m]

/-- The end of an active transaction succeeds, whatever becomes of its trace. -/
theorem conclude_of_active {session : Session} (active : session.state = .active)
    (metadata : Metadata) (sink : Sink m) :
    ∃ outcome : m Outcome, session.conclude metadata sink =
      (fun reached => (.ok reached, (session.close metadata).2.reset)) <$> outcome := by
  cases tainted : session.taint.isSome with
  | true =>
      refine ⟨pure (.discarded Outcome.discardReason), ?_⟩
      rw [conclude_of_tainted active tainted, map_pure]
  | false =>
      by_cases bare : session.steps = []
      · exact ⟨pure .skipped, by rw [conclude_of_no_step active tainted bare, map_pure]⟩
      · exact ⟨_, conclude_of_step active tainted bare metadata sink⟩

theorem takeAll_start_active {session : Session} (inactive : session.state ≠ .active)
    (events : List Event) : (session.start.2.takeAll events).state = .active := by
  rw [takeAll_state, start_of_inactive inactive]

/-- The close of a replay and the end of a transaction treat every trace alike. -/
theorem replay_of_inactive {session : Session} (inactive : session.state ≠ .active)
    (transaction : Transaction) (sink : Sink m) :
    session.replay transaction sink =
      (session.start.2.takeAll transaction.events).conclude transaction.metadata sink := by
  have active := takeAll_start_active inactive transaction.events
  rw [start_of_inactive inactive] at active ⊢
  rw [replay, start_of_inactive inactive]
  dsimp only at active ⊢
  rw [feed_eq_takeAll ⟨rfl, rfl⟩]
  generalize takeAll _ transaction.events = taken at active ⊢
  cases tainted : taken.taint.isSome with
  | true => rw [conclude_of_tainted active tainted, close_of_tainted active tainted]
  | false =>
      by_cases bare : taken.steps = []
      · rw [conclude_of_no_step active tainted bare, close_of_no_step active tainted bare]
      · rw [conclude_of_step active tainted bare, close_of_step active tainted bare]
        exact (map_eq_pure_bind _ _).symm

/--
A replay does to the session and to the sink what the start of a transaction, all its events and its
end do, whatever is answered to the events, and it succeeds. With a session that is active already it
fails and changes nothing.
-/
theorem replay_is_start_events_and_end (session : Session) (transaction : Transaction)
    (sink : Sink m) :
    let taken := session.start.2.takeAll transaction.events
    if session.state = .active then
      session.replay transaction sink = pure (.error (.wrongState .start .active), session)
    else
      session.replay transaction sink = taken.conclude transaction.metadata sink ∧
        ∃ outcome : m Outcome, session.replay transaction sink =
          (fun reached => (.ok reached, (taken.close transaction.metadata).2.reset)) <$>
            outcome := by
  intro taken
  by_cases active : session.state = .active
  · rw [if_pos active, replay, start, if_pos active]
    simp only [active]
  · have same := replay_of_inactive active transaction sink
    rw [if_neg active, same]
    exact ⟨rfl, conclude_of_active (takeAll_start_active active transaction.events)
      transaction.metadata sink⟩

end Replay

/-- A call that skips a level is refused, and neither the step nor the call behind it is taken. -/
theorem replay_of_refused_call_is_start_events_and_end :
    let root := Call.plain .call 0 (.zero 20) (.zero 20)
    let grandchild := Call.plain .call 2 (.zero 20) (.zero 20)
    let step : Step :=
      { pc := 0, depth := 1, opcode := "STOP", gas := 9, cost := 0, output := "" }
    let transaction : Transaction :=
      { metadata :=
          { block := 0, hash := .zero 32, sender := .zero 20, recipient := none, value := 0
            gasPrice := 0, gasUsed := 0 }
        events := [.step step, .enter root, .enter grandchild, .step step, .enter root] }
    let session := new {}
    session.state ≠ .active ∧
      session.replay transaction Sink.memory =
        (session.start.2.takeAll transaction.events).conclude transaction.metadata Sink.memory ∧
      (session.replay transaction Sink.memory []).1.1 =
        .ok (.discarded "session tainted by a rejected call") := by
  intro root grandchild step transaction session
  have inactive : session.state ≠ .active := State.noConfusion
  have same := replay_is_start_events_and_end session transaction Sink.memory
  rw [if_neg inactive] at same
  exact ⟨inactive, same.1, by decide⟩

end Session

end EvmTrace

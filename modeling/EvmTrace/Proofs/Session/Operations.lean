import EvmTrace.Proofs.CallTree.View
import EvmTrace.Replay

set_option autoImplicit false

namespace EvmTrace

namespace Session

/-- What every operation keeps of a session. -/
structure Sound (config : Config) (session : Session) : Prop where
  configured : session.config = config
  wellFormed : session.tree.WellFormed
  bound : session.tree.maxDepth = config.maxDepth

theorem sound_new (config : Config) : Sound config (new config) :=
  ⟨rfl, CallTree.wellFormed_empty config.maxDepth, rfl⟩

namespace Sound

variable {config : Config} {session : Session}

theorem clear (sound : Sound config session) : Sound config session.clear :=
  ⟨sound.configured, sound.wellFormed.reset, sound.bound⟩

theorem withState (sound : Sound config session) (state : State) :
    Sound config { session with state } :=
  ⟨sound.configured, sound.wellFormed, sound.bound⟩

theorem reset (sound : Sound config session) : Sound config session.reset :=
  sound.clear.withState .idle

theorem step (sound : Sound config session) (step : Step) :
    Sound config (session.step step).2 := by
  unfold Session.step
  split
  · exact sound
  · exact ⟨sound.configured, sound.wellFormed, sound.bound⟩

theorem enter (sound : Sound config session) (call : Call) :
    Sound config (session.enter call).2 := by
  unfold Session.enter
  split
  · exact sound
  · dsimp only
    split
    · exact ⟨sound.configured, sound.wellFormed, sound.bound⟩
    · rename_i next entered
      exact ⟨sound.configured, sound.wellFormed.enter entered,
        (CallTree.maxDepth_enter sound.wellFormed entered).trans sound.bound⟩

theorem exited (sound : Sound config session) (depth : Nat) (output : Bytes) :
    Sound config { session with tree := (session.tree.exit depth output).2 } :=
  ⟨sound.configured, sound.wellFormed.exit depth output,
    (CallTree.maxDepth_exit sound.wellFormed depth output).trans sound.bound⟩

theorem exit (sound : Sound config session) (depth : Nat) (output : Bytes) :
    Sound config (session.exit depth output).2 := by
  unfold Session.exit
  split
  · exact sound
  · exact sound.exited depth output

theorem log (sound : Sound config session) (log : Log) : Sound config (session.log log).2 := by
  unfold Session.log
  split
  · exact sound
  · exact ⟨sound.configured, sound.wellFormed, sound.bound⟩

theorem take (sound : Sound config session) (event : Event) :
    Sound config (session.take event).2 := by
  cases event with
  | step step => exact sound.step step
  | enter call => exact sound.enter call
  | exit depth output => exact sound.exit depth output
  | log log => exact sound.log log

theorem close (sound : Sound config session) (metadata : Metadata) :
    Sound config (session.close metadata).2 := by
  unfold Session.close
  split
  · exact sound
  · split
    · exact sound.clear.withState .closed
    · dsimp only
      split
      · exact sound.clear.withState .closed
      · exact ⟨sound.configured, (CallTree.branch_finish sound.wellFormed).2.2,
          (CallTree.maxDepth_finish sound.wellFormed).trans sound.bound⟩

end Sound

variable {session : Session}

theorem enter_steps (call : Call) : (session.enter call).2.steps = session.steps := by
  unfold enter
  split
  · rfl
  · dsimp only
    split <;> rfl

theorem enter_logs (call : Call) : (session.enter call).2.logs = session.logs := by
  unfold enter
  split
  · rfl
  · dsimp only
    split <;> rfl

theorem take_state (event : Event) : (session.take event).2.state = session.state := by
  cases event with
  | step step =>
      change (session.step step).2.state = _
      unfold Session.step
      split <;> rfl
  | enter call =>
      change (session.enter call).2.state = _
      unfold enter
      split
      · rfl
      · dsimp only
        split <;> rfl
  | exit depth output =>
      change (session.exit depth output).2.state = _
      unfold exit
      split <;> rfl
  | log log =>
      change (session.log log).2.state = _
      unfold Session.log
      split <;> rfl

theorem start_of_inactive (inactive : session.state ≠ .active) :
    session.start = (.ok (), { session.clear with state := .active }) := by
  rw [start, if_neg inactive]

/-- A session that is not active or is tainted takes nothing, and nothing changes it. -/
theorem take_of_hindered (hindered : ¬(session.state = .active ∧ session.taint = none))
    (event : Event) : ∃ e, session.take event = (.error e, session) := by
  have obstructed : ∀ operation, ∃ e, session.obstacle operation = some e := by
    intro operation
    apply Option.ne_none_iff_exists'.mp
    intro free
    exact hindered ((obstacle_eq_none_iff session operation).mp free)
  cases event with
  | step step =>
      obtain ⟨e, found⟩ := obstructed .step
      exact ⟨e, by rw [take, Session.step, found]⟩
  | enter call =>
      obtain ⟨e, found⟩ := obstructed .enter
      exact ⟨e, by rw [take, enter, found]; rfl⟩
  | exit depth output =>
      obtain ⟨e, found⟩ := obstructed .exit
      exact ⟨e, by rw [take, exit, found]⟩
  | log log =>
      obtain ⟨e, found⟩ := obstructed .log
      exact ⟨e, by rw [take, Session.log, found]; rfl⟩

theorem pays_iff (config : Config) (call : Call) :
    pays config call = true ↔
      config.nativeTransfers = true ∧ call.value ≠ 0 ∧ call.kind.movesValue = true := by
  simp only [pays, Bool.and_eq_true, decide_eq_true_eq, and_assoc]

/-- The trace of a transaction that is closed now. -/
def draft (session : Session) (metadata : Metadata) : Trace :=
  { metadata, calls := session.tree.finish.1, steps := session.steps.reverse
    logs := session.logs.reverse, transfers := session.transfers.reverse }

theorem close_of_inactive (inactive : session.state ≠ .active) (metadata : Metadata) :
    session.close metadata = (.error (.wrongState .close session.state), session) := by
  rw [close, if_pos inactive]

theorem close_of_tainted (active : session.state = .active) (tainted : session.taint.isSome = true)
    (metadata : Metadata) :
    session.close metadata = (.error .tainted, { session.clear with state := .closed }) := by
  rw [close, if_neg (not_not_intro active), if_pos tainted]

theorem close_of_no_step (active : session.state = .active)
    (untainted : session.taint.isSome = false) (bare : session.steps = []) (metadata : Metadata) :
    session.close metadata = (.ok none, { session.clear with state := .closed }) := by
  simp [close, active, untainted, bare]

theorem close_of_step (active : session.state = .active)
    (untainted : session.taint.isSome = false) (stepped : session.steps ≠ [])
    (metadata : Metadata) :
    session.close metadata =
      (.ok (some (session.draft metadata)),
        { session with
          state := .closed, tree := session.tree.finish.2, steps := [], logs := []
          transfers := [] }) := by
  simp [close, active, untainted, stepped, draft]

/-- A close answers a trace if a step was taken and no call was refused, and it is the draft. -/
theorem close_eq_trace_iff {metadata : Metadata} {trace : Trace} :
    (session.close metadata).1 = .ok (some trace) ↔
      session.state = .active ∧ session.taint.isSome = false ∧ session.steps ≠ [] ∧
        session.draft metadata = trace := by
  constructor
  · intro closed
    by_cases active : session.state = .active
    · cases tainted : session.taint.isSome with
      | true =>
          rw [close_of_tainted active tainted] at closed
          cases closed
      | false =>
          by_cases bare : session.steps = []
          · rw [close_of_no_step active tainted bare] at closed
            cases closed
          · rw [close_of_step active tainted bare] at closed
            cases closed
            exact ⟨active, rfl, bare, rfl⟩
    · rw [close_of_inactive active] at closed
      cases closed
  · rintro ⟨active, untainted, stepped, rfl⟩
    rw [close_of_step active untainted stepped]

theorem close_state (metadata : Metadata) : (session.close metadata).2.state ≠ .active := by
  unfold close
  split
  · assumption
  · split
    · exact State.noConfusion
    · dsimp only
      split
      · exact State.noConfusion
      · exact State.noConfusion

section Conclude

variable {m : Type → Type} [Monad m] [LawfulMonad m]

theorem conclude_of_inactive (inactive : session.state ≠ .active) (metadata : Metadata)
    (sink : Sink m) :
    session.conclude metadata sink =
      pure (.error (.wrongState .close session.state), session) := by
  unfold conclude
  rw [close_of_inactive inactive]
  simp [Sink.settle]

theorem conclude_of_tainted (active : session.state = .active)
    (tainted : session.taint.isSome = true) (metadata : Metadata) (sink : Sink m) :
    session.conclude metadata sink =
      pure (.ok (.discarded Outcome.discardReason), (session.close metadata).2.reset) := by
  unfold conclude
  rw [close_of_tainted active tainted]
  simp [Sink.settle]

theorem conclude_of_no_step (active : session.state = .active)
    (untainted : session.taint.isSome = false) (bare : session.steps = []) (metadata : Metadata)
    (sink : Sink m) :
    session.conclude metadata sink =
      pure (.ok .skipped, (session.close metadata).2.reset) := by
  unfold conclude
  rw [close_of_no_step active untainted bare]
  simp [Sink.settle]

/-- Only here is the sink called, and once. -/
theorem conclude_of_step (active : session.state = .active)
    (untainted : session.taint.isSome = false) (stepped : session.steps ≠ [])
    (metadata : Metadata) (sink : Sink m) :
    session.conclude metadata sink =
      (fun outcome => (.ok outcome, (session.close metadata).2.reset)) <$>
        sink.deliver (session.draft metadata) := by
  unfold conclude
  rw [close_of_step active untainted stepped]
  simp [Sink.settle]

end Conclude

theorem obstacle_ne_refused {operation : Operation} {e : Error} {reason : Refusal}
    (hindered : session.obstacle operation = some e) : e ≠ .refused reason := by
  unfold obstacle at hindered
  split at hindered
  · cases hindered
    exact Error.noConfusion
  · split at hindered
    · cases hindered
      exact Error.noConfusion
    · cases hindered

end Session

end EvmTrace

import EvmTrace.Proofs.CallTree.Outputs
import EvmTrace.Proofs.Session.Reproduction

/-!
The course of a transaction, in whatever order its events come. An event enters a call, exits one or
records a log, or else it leaves the calls, the logs and the transfers as they are. What these four
keep is kept by every transaction and is true of the trace that is left of it.
-/

set_option autoImplicit false

namespace EvmTrace

namespace Session

variable {config : Config}

/-- What an event can do to a session. -/
inductive Advance (before : Session) : Session → Prop where
  /-- The event is a step, or it is not taken. -/
  | idle (steps : List Step) (taint : Option Refusal) : Advance before { before with steps, taint }
  | enter (call : Call)
    (accepted : before.tree.enter (before.indexed call) =
      .ok (before.tree.place (before.indexed call))) :
    Advance before (before.entered call)
  | exit (depth : Nat) (output : Bytes) :
    Advance before { before with tree := (before.tree.exit depth output).2 }
  | log (emitted : Log) : Advance before (before.logged emitted)

/-- A session in the middle of a transaction. -/
structure Midway (config : Config) (session : Session) : Prop where
  configured : session.config = config
  active : session.state = .active
  holds : ∃ ledger, Holds session.tree config.maxDepth ledger
  /-- The calls have the numbers from zero on as their indices. -/
  numbered : (session.tree.branch.calls.map fun placed => placed.call.index) =
    List.range session.nextIndex

namespace Midway

variable {session before after : Session}

theorem started (config : Config) : Midway config (started config) :=
  ⟨rfl, rfl, ⟨[], (Holds.empty config.maxDepth).operate .reset⟩, rfl⟩

theorem sound (midway : Midway config session) : Sound config session := by
  obtain ⟨configured, _, ⟨_, holds⟩, _⟩ := midway
  exact ⟨configured, holds.wellFormed, holds.bound⟩

theorem opened (midway : Midway config session) (untainted : session.taint = none) :
    Open config session := by
  obtain ⟨ledger, holds⟩ := midway.holds
  exact ⟨midway.sound, midway.active, untainted, holds.tracks.consistent⟩

/-- Every event does one of the things that an event can do. -/
theorem advance_take (midway : Midway config session) (event : Event) :
    session.Advance (session.take event).2 := by
  by_cases untainted : session.taint = none
  · have opened := midway.opened untainted
    cases event with
    | step executed =>
        rw [opened.take_step executed]
        exact .idle _ _
    | log emitted =>
        rw [opened.take_log emitted]
        exact .log emitted
    | exit depth output =>
        rw [opened.take_exit depth output]
        exact .exit depth output
    | enter call =>
        cases verdict : session.tree.enter (session.indexed call) with
        | error reason =>
            have refused : (session.take (.enter call)).2 =
                { session with taint := some reason } := by
              unfold indexed at verdict
              unfold take Session.enter
              simp only [opened.obstacle_eq_none .enter, verdict]
            rw [refused]
            exact .idle _ _
        | ok next =>
            obtain ⟨fits, reached, rfl⟩ := (CallTree.enter_eq_ok_iff _ _ _).mp verdict
            rw [midway.sound.bound] at fits
            rw [← CallTree.length_levels midway.sound.wellFormed] at reached
            rw [opened.take_enter call fits reached]
            exact .enter call verdict
  · obtain ⟨e, same⟩ := take_of_hindered (fun free => untainted free.2) event
    rw [same]
    exact .idle session.steps session.taint

/-- The calls behind an accepted call. -/
theorem calls_entered (midway : Midway config before) (call : Call)
    (accepted : before.tree.enter (before.indexed call) =
      .ok (before.tree.place (before.indexed call))) :
    (before.entered call).tree.branch.calls =
      before.tree.branch.calls ++ [before.tree.branch.placed (before.indexed call)] := by
  obtain ⟨_, reached, _⟩ := (CallTree.enter_eq_ok_iff _ _ _).mp accepted
  rw [← Branch.calls_place]
  exact congrArg Branch.calls (CallTree.branch_place _ _ midway.sound.wellFormed reached)

/-- Whatever an event does leaves the session in the middle of the transaction. -/
theorem advance (midway : Midway config before) (advance : before.Advance after) :
    Midway config after := by
  obtain ⟨configured, active, ⟨ledger, holds⟩, numbered⟩ := midway
  cases advance with
  | idle steps taint => exact ⟨configured, active, ⟨ledger, holds⟩, numbered⟩
  | enter call accepted =>
      have calls := calls_entered ⟨configured, active, ⟨ledger, holds⟩, numbered⟩ call accepted
      have next := holds.operate (.enter (before.indexed call))
      simp only [CallTree.operate, accepted] at next
      refine ⟨configured, active, ⟨_, next⟩, ?_⟩
      rw [calls, List.map_append, numbered]
      exact List.range_succ.symm
  | exit depth output =>
      refine ⟨configured, active, ⟨_, holds.operate (.exit depth output)⟩, ?_⟩
      rw [← numbered]
      exact holds.map_calls_exit _ (fun _ _ => rfl) depth output
  | log emitted => exact ⟨configured, active, ⟨ledger, holds⟩, numbered⟩

/-- What every advance keeps is true behind any events of a transaction. -/
theorem takeAll {motive : Session → Prop} (first : motive (Session.started config))
    (keeps : ∀ before after, Midway config before → before.Advance after → motive before →
      motive after) (events : List Event) :
    Midway config ((Session.started config).takeAll events) ∧
      motive ((Session.started config).takeAll events) := by
  induction events using List.reverseRecOn with
  | nil => exact ⟨started config, first⟩
  | append_singleton events event ih =>
      obtain ⟨midway, holds⟩ := ih
      have step := midway.advance_take event
      rw [takeAll_snoc]
      exact ⟨midway.advance step, keeps _ _ midway step holds⟩

/-- The calls of the trace are those in the tree. -/
theorem draft_calls (midway : Midway config session) (metadata : Metadata) :
    (session.draft metadata).calls = session.tree.branch.calls :=
  (CallTree.branch_finish midway.sound.wellFormed).1

end Midway

end Session

/--
The trace that a close answers after any requests is the draft of a session in the middle of a
transaction, for which everything holds that each event of a transaction keeps.
-/
theorem Host.trace_of_close {World : Type} {config : Config} {world : World}
    {requests : List (Request World)} {metadata : Metadata} {trace : Trace}
    (closed : (((Host.new config world).run requests).session.close metadata).1 =
      .ok (some trace))
    {motive : Session → Prop} (first : motive (Session.started config))
    (keeps : ∀ before after, Session.Midway config before → before.Advance after →
      motive before → motive after) :
    ∃ session, Session.Midway config session ∧ motive session ∧
      trace = session.draft metadata := by
  have kept := Host.Kept.run config world requests
  obtain ⟨active, _⟩ := Session.close_eq_trace_iff.mp closed
  have recorded := kept.recorded active
  rw [(recorded.alike.close metadata).1] at closed
  obtain ⟨_, _, _, rfl⟩ := Session.close_eq_trace_iff.mp closed
  obtain ⟨midway, holds⟩ := Session.Midway.takeAll first keeps
    ((Host.sinceStart ((Host.new config world).run requests).past).filterMap
      fun exchange => exchange.request.event?)
  exact ⟨_, midway, holds, rfl⟩

end EvmTrace

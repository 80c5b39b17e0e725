import EvmTrace.Proofs.Session.History

set_option autoImplicit false

namespace EvmTrace

variable {World : Type}

/-- The trace of an active session is that of a new session with the same events since the start. -/
theorem Recorded.draft_eq {config : Config} {since : List (Exchange World)} {session : Session}
    (recorded : Recorded config since session) (active : session.state = .active)
    (untainted : session.taint.isSome = false) (stepped : session.steps ≠ [])
    (metadata : Metadata) :
    (((Session.started config).takeAll
      (since.filterMap fun exchange => exchange.request.event?)).close metadata).1 =
        .ok (some (session.draft metadata)) := by
  rw [← (recorded.alike.close metadata).1, Session.close_of_step active untainted stepped]

/--
What a request does to a sink, after any requests before it. Only the end of a transaction calls a
sink. It fails and changes nothing while no transaction is traced. Otherwise the session is idle and
untainted afterwards, and the sink is called, once, unless a call has been refused or no step has
been taken since the start of the transaction. The trace holds the given metadata and nothing that
was not taken since that start.
-/
theorem serve_hands_over_sound_traces (config : Config) (world : World)
    (requests : List (Request World)) (request : Request World) :
    let host := (Host.new config world).run requests
    let since := Host.sinceStart host.past
    let reply := host.session.serve host.world request
    match request with
    | .conclude metadata sink =>
      if host.session.state ≠ .active then
        reply =
          { answer := .outcome (.error (.wrongState .close host.session.state))
            session := host.session, world := host.world, handed := [] }
      else
        reply.session.state = .idle ∧ reply.session.taint = none ∧
          if since.any Exchange.refuses then
            reply.answer = .outcome (.ok (.discarded Outcome.discardReason)) ∧
              reply.world = host.world ∧ reply.handed = []
          else if since.filterMap Exchange.step? = [] then
            reply.answer = .outcome (.ok .skipped) ∧ reply.world = host.world ∧
              reply.handed = []
          else
            ∃ trace, reply.handed = [trace] ∧
              reply.answer = .outcome (.ok (.ofWrite trace (sink.write trace host.world).1)) ∧
              reply.world = (sink.write trace host.world).2 ∧
              trace.metadata = metadata ∧
              trace.steps = since.filterMap Exchange.step? ∧
              trace.logs = since.filterMap Exchange.log? ∧
              (((Session.started config).takeAll
                (since.filterMap fun exchange => exchange.request.event?)).close metadata).1 =
                  .ok (some trace)
    | _ => reply.handed = [] ∧ reply.world = host.world := by
  intro host since reply
  have kept : Host.Kept config host := Host.Kept.run config world requests
  cases request with
  | conclude metadata sink =>
      dsimp only
      by_cases active : host.session.state = .active
      · have recorded := kept.recorded active
        have tainted : host.session.taint.isSome = since.any Exchange.refuses := recorded.tainted
        have steps : host.session.steps.reverse = since.filterMap Exchange.step? := recorded.steps
        rw [if_neg (not_not_intro active), ← tainted, ← steps]
        cases broken : host.session.taint.isSome with
        | true =>
            have served : reply = _ :=
              Session.serve_conclude_of_tainted active broken host.world metadata sink
            rw [served, if_pos rfl]
            exact ⟨rfl, rfl, rfl, rfl, rfl⟩
        | false =>
            rw [if_neg Bool.false_ne_true]
            by_cases bare : host.session.steps = []
            · have served : reply = _ :=
                Session.serve_conclude_of_no_step active broken bare host.world metadata sink
              rw [served, bare]
              exact ⟨rfl, rfl, rfl, rfl, rfl⟩
            · have served : reply = _ :=
                Session.serve_conclude_of_step active broken bare host.world metadata sink
              rw [served, if_neg (by simpa using bare)]
              exact ⟨rfl, rfl, host.session.draft metadata, rfl, rfl, rfl, rfl, rfl,
                recorded.logs, recorded.draft_eq active broken bare metadata⟩
      · rw [if_pos active]
        exact Session.serve_conclude_of_inactive active host.world metadata sink
  | start => exact ⟨rfl, rfl⟩
  | step step => exact ⟨rfl, rfl⟩
  | enter call => exact ⟨rfl, rfl⟩
  | exit depth output => exact ⟨rfl, rfl⟩
  | log log => exact ⟨rfl, rfl⟩
  | close metadata => exact ⟨rfl, rfl⟩
  | abort => exact ⟨rfl, rfl⟩
  | reset => exact ⟨rfl, rfl⟩

end EvmTrace

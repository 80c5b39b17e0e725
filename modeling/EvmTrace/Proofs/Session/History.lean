import EvmTrace.Proofs.Session.Alike
import EvmTrace.Proofs.Session.Host
import EvmTrace.Proofs.Session.Operations
import Mathlib.Data.List.Induction

/-!
What the exchanges of a host say about its session. While a transaction is traced, the session holds
what was taken since the start of the transaction, and is alike to a new session that went through
the same events; what came before the start has left no trace in it.
-/

set_option autoImplicit false

namespace EvmTrace

variable {World : Type} {config : Config}

namespace Session

theorem takeAll_snoc (session : Session) (events : List Event) (event : Event) :
    session.takeAll (events ++ [event]) = ((session.takeAll events).take event).2 :=
  List.foldl_append

theorem takeAll_state (session : Session) (events : List Event) :
    (session.takeAll events).state = session.state := by
  induction events generalizing session with
  | nil => rfl
  | cons event rest ih => exact (ih (session.take event).2).trans (take_state event)

theorem Sound.takeAll {session : Session} (sound : Sound config session) (events : List Event) :
    Sound config (session.takeAll events) := by
  induction events generalizing session with
  | nil => exact sound
  | cons event rest ih => exact ih (sound.take event)

theorem Alike.takeAll {left right : Session} (alike : Alike left right) (events : List Event) :
    Alike (left.takeAll events) (right.takeAll events) := by
  induction events generalizing left right with
  | nil => exact alike
  | cons event rest ih => exact ih (alike.take event).2

/-- A new session in which a transaction has been started. -/
def started (config : Config) : Session :=
  (new config).start.2

/-- Whatever a session held before a start, it is alike to a new one behind it. -/
theorem Sound.alike_started {session : Session} (sound : Sound config session) :
    Alike { session.clear with state := .active } (started config) := by
  have trees : session.tree.reset.Alike (CallTree.empty config.maxDepth).reset :=
    ⟨sound.wellFormed.reset, (CallTree.wellFormed_empty _).reset, by
      rw [CallTree.branch_reset, CallTree.branch_reset, sound.bound]
      rfl⟩
  obtain ⟨rfl, _, _⟩ := sound
  exact ⟨trees, rfl⟩

end Session

/-- What an active session holds of the exchanges since its transaction was started. -/
structure Recorded (config : Config) (since : List (Exchange World)) (session : Session) :
    Prop where
  alike : session.Alike
    ((Session.started config).takeAll (since.filterMap fun exchange => exchange.request.event?))
  tainted : session.taint.isSome = since.any Exchange.refuses
  steps : session.steps.reverse = since.filterMap Exchange.step?
  logs : session.logs.reverse = since.filterMap Exchange.log?

namespace Recorded

variable {since : List (Exchange World)} {session : Session}

theorem started (sound : Session.Sound config session) :
    Recorded config ([] : List (Exchange World)) { session.clear with state := .active } :=
  ⟨sound.alike_started, rfl, rfl, rfl⟩

/-- A start that fails leaves the record as it is. -/
theorem restarted (recorded : Recorded config since session) (e : Session.Error) :
    Recorded config (since ++ [⟨.start, .done (.error e)⟩]) session := by
  refine ⟨?_, ?_, ?_, ?_⟩
  · simpa [Request.event?] using recorded.alike
  · simpa [Exchange.refuses] using recorded.tainted
  · rw [List.filterMap_append, recorded.steps]
    exact (List.append_nil _).symm
  · rw [List.filterMap_append, recorded.logs]
    exact (List.append_nil _).symm

/-- What has to be known of an exchange that reports an event. -/
theorem report (recorded : Recorded config since session) {exchange : Exchange World}
    (event : Event) (reports : exchange.request.event? = some event)
    (tainted : (session.take event).2.taint.isSome =
      (session.taint.isSome || exchange.refuses))
    (steps : (session.take event).2.steps.reverse =
      session.steps.reverse ++ exchange.step?.toList)
    (logs : (session.take event).2.logs.reverse =
      session.logs.reverse ++ exchange.log?.toList) :
    Recorded config (since ++ [exchange]) (session.take event).2 := by
  have single : ∀ {α : Type} (choose : Exchange World → Option α),
      [exchange].filterMap choose = (choose exchange).toList := by
    intro α choose
    cases chosen : choose exchange <;> simp [chosen]
  refine ⟨?_, ?_, ?_, ?_⟩
  · rw [List.filterMap_append, single, reports, Option.toList_some, Session.takeAll_snoc]
    exact (recorded.alike.take event).2
  · rw [List.any_append, tainted, recorded.tainted]
    simp
  · rw [List.filterMap_append, single, steps, recorded.steps]
  · rw [List.filterMap_append, single, logs, recorded.logs]

theorem step (recorded : Recorded config since session) (step : Step) :
    Recorded config (since ++ [⟨.step step, .done (session.step step).1⟩])
      (session.step step).2 := by
  refine recorded.report (.step step) rfl ?_ ?_ ?_
  · unfold Session.take Session.step
    cases session.obstacle .step <;> simp [Exchange.refuses]
  · unfold Session.take Session.step
    cases session.obstacle .step <;> simp [Exchange.step?]
  · unfold Session.take Session.step
    cases session.obstacle .step <;> simp [Exchange.log?]

theorem exit (recorded : Recorded config since session) (depth : Nat) (output : Bytes) :
    Recorded config (since ++ [⟨.exit depth output, .done (session.exit depth output).1⟩])
      (session.exit depth output).2 := by
  refine recorded.report (.exit depth output) rfl ?_ ?_ ?_
  · unfold Session.take Session.exit
    cases session.obstacle .exit <;> simp [Exchange.refuses]
  · unfold Session.take Session.exit
    cases session.obstacle .exit <;> simp [Exchange.step?]
  · unfold Session.take Session.exit
    cases session.obstacle .exit <;> simp [Exchange.log?]

theorem log (recorded : Recorded config since session) (log : Log) :
    Recorded config (since ++ [⟨.log log, .event (session.log log).1⟩]) (session.log log).2 := by
  refine recorded.report (.log log) rfl ?_ ?_ ?_
  · unfold Session.take Session.log
    cases session.obstacle .log <;> simp [Exchange.refuses]
  · unfold Session.take Session.log
    cases session.obstacle .log <;> simp [Exchange.step?]
  · unfold Session.take Session.log
    cases session.obstacle .log <;> simp [Exchange.log?, Session.tag, Log.tagged]

theorem enter (recorded : Recorded config since session) (call : Call) :
    Recorded config (since ++ [⟨.enter call, .index (session.enter call).1⟩])
      (session.enter call).2 := by
  have hindered : ∀ e, session.obstacle .enter = some e →
      (⟨.enter call, .index (.error e)⟩ : Exchange World).refuses = false := by
    intro e hindered
    cases e with
    | refused reason => exact absurd rfl (Session.obstacle_ne_refused hindered)
    | wrongState operation state => rfl
    | tainted => rfl
  refine recorded.report (.enter call) rfl ?_ ?_ ?_
  · change (session.enter call).2.taint.isSome = _
    unfold Session.enter
    cases found : session.obstacle .enter with
    | some e => simp [hindered e found]
    | none =>
        dsimp only
        split
        · simp [Exchange.refuses]
        · simp [Exchange.refuses]
  · change (session.enter call).2.steps.reverse = session.steps.reverse ++ []
    rw [Session.enter_steps, List.append_nil]
  · change (session.enter call).2.logs.reverse = session.logs.reverse ++ []
    rw [Session.enter_logs, List.append_nil]

end Recorded

/-- What becomes of a trace that a sink was called with. -/
def Outcome.ofWrite (trace : Trace) : Except Store.Error Unit → Outcome
  | .ok () => .written (Summary.ofTrace trace)
  | .error reason => .failed reason

theorem Sink.noting_deliver (sink : Sink (StateM World)) (trace : Trace) (world : World)
    (noted : List Trace) :
    sink.noting.deliver trace (world, noted) =
      (Outcome.ofWrite trace (sink.write trace world).1,
        (sink.write trace world).2, noted ++ [trace]) := by
  unfold Sink.deliver
  change (StateT.bind _ _) _ = _
  unfold StateT.bind
  simp only [noting]
  generalize sink.write trace world = written
  obtain ⟨reply, after⟩ := written
  cases reply <;> rfl

theorem Sink.noting_settle (sink : Sink (StateM World)) (trace : Trace) (world : World)
    (noted : List Trace) :
    sink.noting.settle (.ok (some trace)) (world, noted) =
      (.ok (Outcome.ofWrite trace (sink.write trace world).1),
        (sink.write trace world).2, noted ++ [trace]) := by
  simp only [settle, bind, StateT.bind, noting_deliver]
  rfl

namespace Session

variable {session : Session}

theorem serve_conclude_of_inactive (inactive : session.state ≠ .active) (world : World)
    (metadata : Metadata) (sink : Sink (StateM World)) :
    session.serve world (.conclude metadata sink) =
      { answer := .outcome (.error (.wrongState .close session.state)), session, world
        handed := [] } := by
  unfold serve
  simp only [conclude_of_inactive inactive]
  rfl

theorem serve_conclude_of_tainted (active : session.state = .active)
    (tainted : session.taint.isSome = true) (world : World) (metadata : Metadata)
    (sink : Sink (StateM World)) :
    session.serve world (.conclude metadata sink) =
      { answer := .outcome (.ok (.discarded Outcome.discardReason))
        session := (session.close metadata).2.reset, world, handed := [] } := by
  unfold serve
  simp only [conclude_of_tainted active tainted]
  rfl

theorem serve_conclude_of_no_step (active : session.state = .active)
    (untainted : session.taint.isSome = false) (bare : session.steps = []) (world : World)
    (metadata : Metadata) (sink : Sink (StateM World)) :
    session.serve world (.conclude metadata sink) =
      { answer := .outcome (.ok .skipped), session := (session.close metadata).2.reset, world
        handed := [] } := by
  unfold serve
  simp only [conclude_of_no_step active untainted bare]
  rfl

theorem serve_conclude_of_step (active : session.state = .active)
    (untainted : session.taint.isSome = false) (stepped : session.steps ≠ []) (world : World)
    (metadata : Metadata) (sink : Sink (StateM World)) :
    session.serve world (.conclude metadata sink) =
      { answer := .outcome (.ok (.ofWrite (session.draft metadata)
          (sink.write (session.draft metadata) world).1))
        session := (session.close metadata).2.reset
        world := (sink.write (session.draft metadata) world).2
        handed := [session.draft metadata] } := by
  have concluded : session.conclude metadata sink.noting (world, []) =
      ((.ok (.ofWrite (session.draft metadata) (sink.write (session.draft metadata) world).1),
          (session.close metadata).2.reset),
        (sink.write (session.draft metadata) world).2, [session.draft metadata]) := by
    rw [conclude_of_step active untainted stepped]
    change StateT.map _ _ _ = _
    unfold StateT.map
    rw [Sink.noting_deliver]
    rfl
  unfold serve
  simp only [concluded]

/-- The end of a transaction is its close, and the session is idle behind it if that succeeds. -/
theorem serve_conclude (session : Session) (world : World) (metadata : Metadata)
    (sink : Sink (StateM World)) :
    session.serve world (.conclude metadata sink) =
      let closed := session.close metadata
      let settled := sink.noting.settle closed.1 (world, [])
      { answer := .outcome settled.1
        session := match settled.1 with
          | .error _ => closed.2
          | .ok _ => closed.2.reset
        world := settled.2.1
        handed := settled.2.2 } := by
  unfold serve conclude
  simp only [bind, StateT.bind, pure]
  cases settled : sink.noting.settle (session.close metadata).1 (world, []) with
  | mk answer rest => cases answer <;> rfl

theorem serve_conclude_session (session : Session) (world : World) (metadata : Metadata)
    (sink : Sink (StateM World)) :
    (session.serve world (.conclude metadata sink)).session =
      if session.state = .active then (session.close metadata).2.reset else session := by
  by_cases active : session.state = .active
  · rw [if_pos active]
    cases tainted : session.taint.isSome with
    | true => rw [serve_conclude_of_tainted active tainted]
    | false =>
        by_cases bare : session.steps = []
        · rw [serve_conclude_of_no_step active tainted bare]
        · rw [serve_conclude_of_step active tainted bare]
  · rw [if_neg active, serve_conclude_of_inactive active]

end Session

/-- What every request keeps of a host with a given configuration. -/
structure Host.Kept (config : Config) (host : Host World) : Prop where
  sound : Session.Sound config host.session
  recorded : host.session.state = .active →
    Recorded config (Host.sinceStart host.past) host.session

namespace Host.Kept

variable {host : Host World}

/-- A request that reports an event of a transaction is one more exchange since its start. -/
theorem report (kept : Kept config host) (exchange : Exchange World) (event : Event)
    (world : World) (goes : exchange.starts = false)
    (recorded : ∀ since, Recorded config since host.session →
      Recorded config (since ++ [exchange]) (host.session.take event).2) :
    Kept config
      { session := (host.session.take event).2, world, past := host.past ++ [exchange] } := by
  refine ⟨kept.sound.take event, ?_⟩
  intro active
  rw [Session.take_state] at active
  rw [Host.sinceStart_snoc, goes]
  exact recorded _ (kept.recorded active)

/-- A host whose session is not active has nothing to remember. -/
theorem of_inactive {session : Session} (sound : Session.Sound config session)
    (inactive : session.state ≠ .active) (world : World) (past : List (Exchange World)) :
    Kept config { session, world, past } :=
  ⟨sound, fun active => absurd active inactive⟩

theorem serve (kept : Kept config host) (request : Request World) :
    Kept config (host.serve request) := by
  have reset_inactive : ∀ session : Session, session.reset.state ≠ .active :=
    fun _ => Session.State.noConfusion
  cases request with
  | start =>
      change Kept config { host with
        session := host.session.start.2
        past := host.past ++ [⟨.start, .done host.session.start.1⟩] }
      by_cases active : host.session.state = .active
      · rw [Session.start, if_pos active]
        refine ⟨kept.sound, fun _ => ?_⟩
        rw [Host.sinceStart_snoc]
        exact (kept.recorded active).restarted _
      · rw [Session.start, if_neg active]
        refine ⟨kept.sound.clear.withState .active, fun _ => ?_⟩
        rw [Host.sinceStart_snoc]
        exact Recorded.started kept.sound
  | step step => exact kept.report _ (.step step) _ rfl fun _ recorded => recorded.step step
  | enter call => exact kept.report _ (.enter call) _ rfl fun _ recorded => recorded.enter call
  | exit depth output =>
      exact kept.report _ (.exit depth output) _ rfl fun _ recorded => recorded.exit depth output
  | log log => exact kept.report _ (.log log) _ rfl fun _ recorded => recorded.log log
  | close metadata =>
      exact of_inactive (kept.sound.close metadata) (Session.close_state metadata) _ _
  | conclude metadata sink =>
      change Kept config { host.serve (.conclude metadata sink) with
        session := (host.session.serve host.world (.conclude metadata sink)).session }
      rw [Session.serve_conclude_session]
      split
      · exact of_inactive (kept.sound.close metadata).reset (reset_inactive _) _ _
      · rename_i inactive
        exact of_inactive kept.sound inactive _ _
  | abort => exact of_inactive kept.sound.reset (reset_inactive _) _ _
  | reset => exact of_inactive kept.sound.reset (reset_inactive _) _ _

theorem run (config : Config) (world : World) (requests : List (Request World)) :
    Kept config ((Host.new config world).run requests) := by
  induction requests using List.reverseRecOn with
  | nil => exact ⟨Session.sound_new config, fun active => Session.State.noConfusion active⟩
  | append_singleton requests request ih =>
      rw [Host.run_snoc]
      exact ih.serve request

end Host.Kept

end EvmTrace

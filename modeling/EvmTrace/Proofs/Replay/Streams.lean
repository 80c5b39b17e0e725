import EvmTrace.Proofs.Replay.Tracing
import EvmTrace.Proofs.Session.Execution
import EvmTrace.Proofs.Session.Exits

/-!
The streams of a transaction are recorded apart. Steps read nothing of a session and nothing reads
them; logs read which call is open, and only token transfers go with them. So a session that is seen
without its steps, or without its logs and token transfers, keeps up with the events that are left
if the steps or the logs are taken out of a transaction.
-/

set_option autoImplicit false

namespace EvmTrace

namespace Event

def isStep : Event → Bool
  | step _ => true
  | _ => false

def isLog : Event → Bool
  | log _ => true
  | _ => false

def isOfCall : Event → Bool
  | enter _ => true
  | exit _ _ => true
  | _ => false

end Event

def dropSteps (events : List Event) : List Event :=
  events.filter fun event => !event.isStep

def dropLogs (events : List Event) : List Event :=
  events.filter fun event => !event.isLog

def ofCalls (events : List Event) : List Event :=
  events.filter Event.isOfCall

theorem dropLogs_dropSteps (events : List Event) :
    dropLogs (dropSteps events) = ofCalls events := by
  rw [dropLogs, dropSteps, List.filter_filter, ofCalls]
  congr 1
  funext event
  cases event <;> rfl

theorem payments_reverse (transfers : List Transfer) :
    payments transfers.reverse = (payments transfers).reverse :=
  List.filter_reverse

namespace Session

/--
Events that a view of a session does not see can be left out, if the view keeps up with all others.
-/
theorem view_takeAll (view : Session → Session) (seen : Event → Bool)
    (keepsUp : ∀ session event, view (session.take event).2 =
      if seen event then ((view session).take event).2 else view session)
    (session : Session) (events : List Event) :
    view (session.takeAll events) = (view session).takeAll (events.filter seen) := by
  rw [takeAll, takeAll, List.foldl_filter]
  exact (List.foldl_hom view fun session event => (keepsUp session event).symm).symm

def withoutSteps (session : Session) : Session :=
  { session with steps := [] }

def withoutLogs (session : Session) : Session :=
  { session with logs := [], transfers := payments session.transfers }

theorem eq_of_withoutSteps {left right : Session}
    (views : left.withoutSteps = right.withoutSteps) : left = { right with steps := left.steps } := by
  cases left
  cases right
  cases views
  rfl

theorem eq_of_withoutLogs {left right : Session} (views : left.withoutLogs = right.withoutLogs) :
    left = { right with logs := left.logs, transfers := left.transfers } ∧
      payments left.transfers = payments right.transfers := by
  have paid : left.withoutLogs.transfers = right.withoutLogs.transfers := by rw [views]
  refine ⟨?_, paid⟩
  cases left
  cases right
  simp only [withoutLogs, mk.injEq] at views ⊢
  simp [views]

theorem take_withoutSteps (session : Session) (event : Event) :
    (session.take event).2.withoutSteps =
      if !event.isStep then (session.withoutSteps.take event).2 else session.withoutSteps := by
  have obstacle : ∀ operation, session.withoutSteps.obstacle operation =
      session.obstacle operation := fun _ => rfl
  cases event with
  | step step =>
      unfold take Session.step
      cases session.obstacle .step <;> rfl
  | enter call =>
      have tree : session.withoutSteps.tree = session.tree := rfl
      have index : session.withoutSteps.nextIndex = session.nextIndex := rfl
      unfold take enter
      simp only [obstacle, tree, index]
      cases session.obstacle .enter with
      | some e => rfl
      | none => cases session.tree.enter { call with index := session.nextIndex } <;> rfl
  | exit depth output =>
      unfold take exit
      simp only [obstacle]
      cases session.obstacle .exit <;> rfl
  | log log =>
      unfold take Session.log
      simp only [obstacle]
      cases session.obstacle .log <;> rfl

theorem take_withoutLogs (session : Session) (event : Event) :
    (session.take event).2.withoutLogs =
      if !event.isLog then (session.withoutLogs.take event).2 else session.withoutLogs := by
  have obstacle : ∀ operation, session.withoutLogs.obstacle operation =
      session.obstacle operation := fun _ => rfl
  cases event with
  | step step =>
      unfold take Session.step
      simp only [obstacle]
      cases session.obstacle .step <;> rfl
  | enter call =>
      have tree : session.withoutLogs.tree = session.tree := rfl
      have index : session.withoutLogs.nextIndex = session.nextIndex := rfl
      have config : session.withoutLogs.config = session.config := rfl
      unfold take enter
      simp only [obstacle, tree, index, config]
      cases session.obstacle .enter with
      | some e => rfl
      | none =>
          cases session.tree.enter { call with index := session.nextIndex } with
          | error reason => rfl
          | ok next =>
              cases paying : pays session.config { call with index := session.nextIndex } with
              | false => rfl
              | true =>
                  simp only [withoutLogs, if_true, payments_payment]
                  rfl
  | exit depth output =>
      unfold take exit
      simp only [obstacle]
      cases session.obstacle .exit <;> rfl
  | log log =>
      unfold take Session.log
      cases session.obstacle .log with
      | some e => rfl
      | none =>
          dsimp only
          cases moves : (TokenEvent.classify log.topics log.data log.address).movement with
          | none => rfl
          | some movement =>
              simp only [withoutLogs, payments_tokenTransfer (TokenEvent.kind_ne_native moves)]
              rfl

/-- The steps that are taken with an event that does not taint a session. -/
theorem steps_take {session : Session} {event : Event} (active : session.state = .active)
    (untainted : (session.take event).2.taint = none) :
    (session.take event).2.steps.reverse =
      session.steps.reverse ++ event.step?.toList := by
  have free : session.state = .active ∧ session.taint = none := by
    by_contra hindered
    obtain ⟨e, same⟩ := take_of_hindered hindered event
    rw [same] at untainted
    exact hindered ⟨active, untainted⟩
  have unhindered : ∀ operation, session.obstacle operation = none :=
    fun operation => (obstacle_eq_none_iff session operation).mpr free
  cases event with
  | step step =>
      unfold take Session.step
      rw [unhindered]
      exact List.reverse_cons
  | enter call =>
      have same : (session.take (.enter call)).2.steps = session.steps := enter_steps call
      rw [same]
      exact (List.append_nil _).symm
  | exit depth output =>
      unfold take exit
      rw [unhindered]
      exact (List.append_nil _).symm
  | log log =>
      unfold take Session.log
      rw [unhindered]
      exact (List.append_nil _).symm

/-- A session that has refused no call has taken all steps. -/
theorem steps_takeAll {session : Session} {events : List Event} (active : session.state = .active)
    (untainted : (session.takeAll events).taint = none) :
    (session.takeAll events).steps.reverse =
      session.steps.reverse ++ events.filterMap Event.step? := by
  induction events generalizing session with
  | nil => exact (List.append_nil _).symm
  | cons event rest ih =>
      have still : (session.take event).2.state = .active := (take_state event).trans active
      have kept := untainted_take_of_takeAll untainted
      rw [takeAll, List.foldl_cons, ← takeAll, ih still untainted, steps_take active kept,
        List.append_assoc]
      congr 1
      cases event <;> rfl

theorem withoutSteps_started (config : Config) (events : List Event) :
    ((started config).takeAll events).withoutSteps = (started config).takeAll (dropSteps events) :=
  view_takeAll Session.withoutSteps (fun event => !event.isStep) take_withoutSteps _ events

theorem withoutLogs_started (config : Config) (events : List Event) :
    ((started config).takeAll events).withoutLogs = (started config).takeAll (dropLogs events) :=
  view_takeAll Session.withoutLogs (fun event => !event.isLog) take_withoutLogs _ events

theorem steps_started {config : Config} {events : List Event}
    (untainted : ((started config).takeAll events).taint = none) :
    ((started config).takeAll events).steps.reverse = events.filterMap Event.step? :=
  steps_takeAll rfl untainted

theorem steps_ne_nil {config : Config} {events : List Event}
    (stepped : ∃ step, .step step ∈ events)
    (untainted : ((started config).takeAll events).taint = none) :
    ((started config).takeAll events).steps ≠ [] := by
  intro bare
  obtain ⟨step, member⟩ := stepped
  have found : step ∈ events.filterMap Event.step? :=
    List.mem_filterMap.mpr ⟨.step step, member, rfl⟩
  rw [← steps_started untainted, bare] at found
  cases found

/-- If only the steps of two transactions differ, only the steps of their sessions do. -/
theorem started_of_same_but_steps (config : Config) {left right : List Event}
    (others : dropSteps left = dropSteps right) :
    (started config).takeAll left =
        { (started config).takeAll right with steps := ((started config).takeAll left).steps } ∧
      ((started config).takeAll left).taint = ((started config).takeAll right).taint := by
  have views : ((started config).takeAll left).withoutSteps =
      ((started config).takeAll right).withoutSteps := by
    rw [withoutSteps_started, withoutSteps_started, others]
  have same := eq_of_withoutSteps views
  exact ⟨same, by rw [same]⟩

/-- Only the calls of a transaction decide whether one of them is refused. -/
theorem taint_started (config : Config) (events : List Event) :
    ((started config).takeAll events).taint = ((started config).takeAll (ofCalls events)).taint := by
  rw [← dropLogs_dropSteps, ← withoutLogs_started, ← withoutSteps_started]
  rfl

section Ending

variable {World : Type}

/-- A sink is called with a trace if no call was refused and a step was taken. -/
theorem handed_ending (config : Config) (transaction : Transaction) (sink : Sink (StateM World))
    (world : World) :
    let taken := (started config).takeAll transaction.events
    (ending config transaction sink world).handed =
      if taken.taint = none ∧ taken.steps ≠ [] then [taken.draft transaction.metadata] else [] := by
  intro taken
  have active : taken.state = .active := takeAll_state _ _
  rw [ending_eq, closing]
  cases tainted : taken.taint with
  | some reason =>
      rw [close_of_tainted active (by rw [tainted]; rfl), if_neg fun free => Option.some_ne_none _ free.1]
      rfl
  | none =>
      have untainted : taken.taint.isSome = false := by rw [tainted]; rfl
      by_cases bare : taken.steps = []
      · rw [close_of_no_step active untainted bare, if_neg fun free => free.2 bare]
        rfl
      · rw [close_of_step active untainted bare, if_pos ⟨rfl, bare⟩]
        rfl

/-- The same steps among the same other events come to the same end. -/
theorem ending_of_interleaved {config : Config} {left right : List Event}
    (steps : left.filterMap Event.step? = right.filterMap Event.step?)
    (others : dropSteps left = dropSteps right) (metadata : Metadata)
    (sink : Sink (StateM World)) (world : World) :
    ending config { metadata, events := left } sink world =
      ending config { metadata, events := right } sink world := by
  have activeL : ((started config).takeAll left).state = .active := takeAll_state _ _
  have activeR : ((started config).takeAll right).state = .active := takeAll_state _ _
  obtain ⟨same, taints⟩ := started_of_same_but_steps config others
  rw [ending_eq, ending_eq, closing, closing]
  dsimp only
  by_cases untainted : ((started config).takeAll left).taint = none
  · -- Neither session has refused a call, so both have taken all steps.
    have untaintedR := taints ▸ untainted
    have taken : ((started config).takeAll left).steps = ((started config).takeAll right).steps := by
      rw [← List.reverse_inj, steps_started untainted, steps_started untaintedR, steps]
    rw [same, taken]
  · -- The sessions may have taken different numbers of steps, but both drop them.
    have taintedL := Option.isSome_iff_ne_none.mpr untainted
    have taintedR := Option.isSome_iff_ne_none.mpr (taints ▸ untainted)
    rw [close_of_tainted activeL taintedL, close_of_tainted activeR taintedR]

/-- Logs change nothing of the steps, the calls and the payments. -/
theorem handed_of_same_but_logs {config : Config} {left right : List Event}
    (others : dropLogs left = dropLogs right) (metadata : Metadata)
    (sink : Sink (StateM World)) (world : World) :
    let handed := fun events => (ending config { metadata, events } sink world).handed
    (handed left).map (fun trace => (trace.steps, trace.calls, payments trace.transfers)) =
      (handed right).map fun trace => (trace.steps, trace.calls, payments trace.transfers) := by
  intro handed
  have views : ((started config).takeAll left).withoutLogs =
      ((started config).takeAll right).withoutLogs := by
    rw [withoutLogs_started, withoutLogs_started, others]
  obtain ⟨same, paid⟩ := eq_of_withoutLogs views
  have taints : ((started config).takeAll left).taint = ((started config).takeAll right).taint := by
    rw [same]
  have steps : ((started config).takeAll left).steps = ((started config).takeAll right).steps := by
    rw [same]
  have trees : ((started config).takeAll left).tree = ((started config).takeAll right).tree := by
    rw [same]
  simp only [handed, handed_ending, taints, steps]
  split
  · simp only [List.map_cons, List.map_nil, draft, steps, trees, payments_reverse, paid]
  · rfl

/-- Steps change nothing of the calls, the logs and the transfers, as long as there are any. -/
theorem handed_of_same_but_steps {config : Config} {left right : List Event}
    (others : dropSteps left = dropSteps right) (stepL : ∃ step, .step step ∈ left)
    (stepR : ∃ step, .step step ∈ right) (metadata : Metadata) (sink : Sink (StateM World))
    (world : World) :
    let handed := fun events => (ending config { metadata, events } sink world).handed
    (handed left).map (fun trace => (trace.calls, trace.logs, trace.transfers)) =
      (handed right).map fun trace => (trace.calls, trace.logs, trace.transfers) := by
  intro handed
  obtain ⟨same, taints⟩ := started_of_same_but_steps config others
  simp only [handed, handed_ending]
  by_cases untainted : ((started config).takeAll left).taint = none
  · have untaintedR := taints ▸ untainted
    rw [if_pos ⟨untainted, steps_ne_nil stepL untainted⟩,
      if_pos ⟨untaintedR, steps_ne_nil stepR untaintedR⟩, same]
    rfl
  · have taintedR := taints ▸ untainted
    rw [if_neg fun free => untainted free.1, if_neg fun free => taintedR free.1]

/--
Each stream of a transaction depends on its own events. How the steps are interleaved with the other
events makes no difference at all; whether the transaction is discarded depends on nothing but its
calls; logs change nothing of the steps, the calls and the payments that a sink is given, and steps
nothing of the calls, the logs and the transfers, as long as there are any.
-/
theorem streams_depend_on_own_events (config : Config) (metadata : Metadata)
    (sink : Sink (StateM World)) (world : World) (left right : List Event) :
    let ending := fun events => ending config { metadata, events } sink world
    (left.filterMap Event.step? = right.filterMap Event.step? →
        dropSteps left = dropSteps right → ending left = ending right) ∧
      (ofCalls left = ofCalls right →
        ((ending left).answer = .ok (.discarded Outcome.discardReason) ↔
          (ending right).answer = .ok (.discarded Outcome.discardReason))) ∧
      (dropLogs left = dropLogs right →
        (ending left).handed.map (fun trace =>
            (trace.steps, trace.calls, payments trace.transfers)) =
          (ending right).handed.map fun trace =>
            (trace.steps, trace.calls, payments trace.transfers)) ∧
      (dropSteps left = dropSteps right →
        (∃ step, .step step ∈ left) → (∃ step, .step step ∈ right) →
          (ending left).handed.map (fun trace => (trace.calls, trace.logs, trace.transfers)) =
            (ending right).handed.map fun trace =>
              (trace.calls, trace.logs, trace.transfers)) := by
  intro ending
  refine ⟨?_, ?_, ?_, ?_⟩
  · intro steps others
    exact ending_of_interleaved steps others metadata sink world
  · intro calls
    rw [answer_ending_eq_discarded_iff, answer_ending_eq_discarded_iff, taint_started, calls,
      ← taint_started]
  · intro others
    exact handed_of_same_but_logs others metadata sink world
  · intro others stepL stepR
    exact handed_of_same_but_steps others stepL stepR metadata sink world

end Ending

/--
A call with a log and two steps, reported in another order, without the log, and with one step less.
-/
theorem streams_depend_on_own_events_of_one_call :
    let root : Event := .enter (.plain .call 0 (.zero 20) (.zero 20))
    let log : Event := .log { address := .zero 20, topics := [], data := [] }
    let executed : Step :=
      { pc := 0, depth := 1, opcode := "LOG0", gas := 9, cost := 1, output := "" }
    let step : Event := .step executed
    let done : Event := .exit 0 []
    let first := [root, step, log, step, done]
    let mixed := [step, root, log, done, step]
    let quiet := [root, step, step, done]
    let brief := [root, log, step, done]
    let metadata : Metadata :=
      { block := 0, hash := .zero 32, sender := .zero 20, recipient := none, value := 0
        gasPrice := 0, gasUsed := 0 }
    let ending := fun events => ending {} { metadata, events } Sink.memory []
    ending first = ending mixed ∧
      ((ending first).answer = .ok (.discarded Outcome.discardReason) ↔
        (ending quiet).answer = .ok (.discarded Outcome.discardReason)) ∧
      (ending first).handed.map (fun trace => (trace.steps, trace.calls, payments trace.transfers)) =
        (ending quiet).handed.map (fun trace =>
          (trace.steps, trace.calls, payments trace.transfers)) ∧
      (ending first).handed.map (fun trace => (trace.calls, trace.logs, trace.transfers)) =
        (ending brief).handed.map (fun trace => (trace.calls, trace.logs, trace.transfers)) ∧
      (ending first).handed.length = 1 := by
  intro root log executed step done first mixed quiet brief metadata ending
  have streams := fun left right =>
    streams_depend_on_own_events {} metadata Sink.memory [] left right
  refine ⟨?_, ?_, ?_, ?_, ?_⟩
  · exact (streams first mixed).1 rfl rfl
  · exact (streams first quiet).2.1 rfl
  · exact (streams first quiet).2.2.1 rfl
  · exact (streams first brief).2.2.2 rfl ⟨executed, .tail _ (.head _)⟩
      ⟨executed, .tail _ (.tail _ (.head _))⟩
  · decide +kernel

end Session

end EvmTrace

import EvmTrace.Proofs.Replay.Tracing

/-!
The greatest depth of a call decides whether a transaction is discarded, and nothing else. A tree
asks for it when a call comes, so two sessions with different limits go in step as long as the calls
lie within both limits, and a call that does not taints the session with the tighter one.
-/

set_option autoImplicit false

namespace EvmTrace

/-- An event does not enter a call deeper than a limit. -/
def Event.Within (limit : Nat) (event : Event) : Prop :=
  ∀ call, event = .enter call → call.depth ≤ limit

theorem Event.Within.mono {tight loose : Nat} {event : Event} (within : event.Within tight)
    (tighter : tight ≤ loose) : event.Within loose :=
  fun call enters => (within call enters).trans tighter

namespace CallTree

/-- The same calls in a tree with another greatest depth. -/
def withLimit (tree : CallTree) (limit : Nat) : CallTree :=
  { tree with maxDepth := limit }

variable (tree : CallTree) (limit : Nat)

theorem foldTimes_withLimit (count : Nat) :
    foldTimes count (tree.withLimit limit) = (foldTimes count tree).withLimit limit := by
  induction count generalizing tree with
  | zero => rfl
  | succ count ih => exact ih tree.fold

theorem foldTo_withLimit (depth : Nat) :
    (tree.withLimit limit).foldTo depth = (tree.foldTo depth).withLimit limit :=
  foldTimes_withLimit tree limit (tree.depth - depth)

theorem flushBefore_withLimit (depth : Nat) :
    (tree.withLimit limit).flushBefore depth = (tree.flushBefore depth).withLimit limit := by
  have waits : (tree.withLimit limit).buffer 0 = tree.buffer 0 := rfl
  unfold flushBefore
  rw [waits]
  split <;> rfl

theorem place_withLimit (call : Call) :
    (tree.withLimit limit).place call = (tree.place call).withLimit limit := by
  simp only [place, foldTo_withLimit, flushBefore_withLimit]
  rfl

/-- A call within both limits is entered or refused alike. -/
theorem enter_withLimit {call : Call} (fits : call.depth ≤ tree.maxDepth)
    (within : call.depth ≤ limit) :
    (tree.withLimit limit).enter call = (tree.enter call).map (withLimit · limit) := by
  have deepest : (tree.withLimit limit).deepest = tree.deepest := rfl
  have bound : (tree.withLimit limit).maxDepth = limit := rfl
  unfold enter
  rw [deepest, bound, place_withLimit, if_neg (Nat.not_lt.mpr fits), if_neg (Nat.not_lt.mpr within)]
  split <;> rfl

theorem exit_withLimit (depth : Nat) (output : Bytes) :
    (tree.withLimit limit).exit depth output =
      ((tree.exit depth output).1, (tree.exit depth output).2.withLimit limit) := by
  have opened : (tree.withLimit limit).openCalls = tree.openCalls := rfl
  have stands : (tree.withLimit limit).callAt = tree.callAt := rfl
  unfold exit
  rw [opened, stands]
  split
  · rfl
  · dsimp only
    split
    · rfl
    · split <;> rfl

theorem finish_withLimit :
    (tree.withLimit limit).finish = (tree.finish.1, tree.finish.2.withLimit limit) := by
  simp only [finish, foldTo_withLimit]
  rfl

end CallTree

namespace Session

/-- A session with another greatest depth that holds the same. -/
def withLimit (session : Session) (limit : Nat) : Session :=
  { session with
    config := { session.config with maxDepth := limit }, tree := session.tree.withLimit limit }

variable {config : Config} {session : Session} {limit : Nat}

@[simp] theorem obstacle_withLimit (operation : Operation) :
    (session.withLimit limit).obstacle operation = session.obstacle operation := rfl

@[simp] theorem tree_withLimit :
    (session.withLimit limit).tree = session.tree.withLimit limit := rfl

@[simp] theorem nextIndex_withLimit :
    (session.withLimit limit).nextIndex = session.nextIndex := rfl

/-- An event within both limits is taken or refused alike. -/
theorem take_withLimit {event : Event} (fits : event.Within session.tree.maxDepth)
    (within : event.Within limit) :
    (session.withLimit limit).take event =
      ((session.take event).1, (session.take event).2.withLimit limit) := by
  cases event with
  | step step =>
      unfold take Session.step
      rw [obstacle_withLimit]
      cases session.obstacle .step <;> rfl
  | exit depth output =>
      unfold take exit
      simp only [obstacle_withLimit, tree_withLimit, CallTree.exit_withLimit]
      cases session.obstacle .exit <;> rfl
  | log log =>
      unfold take Session.log
      rw [obstacle_withLimit]
      cases session.obstacle .log <;> rfl
  | enter call =>
      have verdict : (session.tree.withLimit limit).enter { call with index := session.nextIndex } =
          (session.tree.enter { call with index := session.nextIndex }).map
            (CallTree.withLimit · limit) :=
        CallTree.enter_withLimit session.tree limit (fits call rfl) (within call rfl)
      unfold take enter
      simp only [obstacle_withLimit, tree_withLimit, nextIndex_withLimit, verdict]
      cases session.obstacle .enter with
      | some e => rfl
      | none => cases session.tree.enter { call with index := session.nextIndex } <;> rfl

/-- A session keeps in step with one that has a looser limit while the calls lie within its own. -/
theorem takeAll_withLimit (sound : Sound config session) (looser : config.maxDepth ≤ limit)
    {events : List Event} (within : ∀ event ∈ events, event.Within config.maxDepth) :
    (session.withLimit limit).takeAll events = (session.takeAll events).withLimit limit := by
  induction events generalizing session with
  | nil => rfl
  | cons event rest ih =>
      have here := within event List.mem_cons_self
      have taken : ((session.withLimit limit).take event).2 =
          (session.take event).2.withLimit limit := by
        rw [take_withLimit (sound.bound ▸ here) (here.mono looser)]
      have rest_within := fun event member => within event (List.mem_cons_of_mem _ member)
      calc (session.withLimit limit).takeAll (event :: rest)
        _ = ((session.take event).2.withLimit limit).takeAll rest := by
          rw [takeAll, List.foldl_cons, taken, takeAll]
        _ = ((session.take event).2.takeAll rest).withLimit limit := ih (sound.take event) rest_within

/-- A call beyond the limit is refused, unless one has been refused already. -/
theorem tainted_of_not_within (sound : Sound config session) (active : session.state = .active)
    {event : Event} (beyond : ¬event.Within config.maxDepth) :
    (session.take event).2.taint ≠ none := by
  obtain ⟨call, rfl, deep⟩ : ∃ call, event = .enter call ∧ config.maxDepth < call.depth := by
    simpa [Event.Within] using beyond
  by_cases untainted : session.taint = none
  · have free := (obstacle_eq_none_iff session .enter).mpr ⟨active, untainted⟩
    have refused : session.tree.enter { call with index := session.nextIndex } =
        .error (.tooDeep call.depth session.tree.maxDepth) := by
      rw [CallTree.enter, if_pos (sound.bound ▸ deep)]
    unfold take enter
    simp only [free, refused]
    exact Option.some_ne_none _
  · obtain ⟨e, same⟩ := take_of_hindered (fun free => untainted free.2) (.enter call)
    rw [same]
    exact untainted

theorem tainted_of_mem (sound : Sound config session) (active : session.state = .active)
    {events : List Event} {event : Event} (member : event ∈ events)
    (beyond : ¬event.Within config.maxDepth) : (session.takeAll events).taint ≠ none := by
  induction events generalizing session with
  | nil => cases member
  | cons first rest ih =>
      have still : (session.take first).2.state = .active := (take_state first).trans active
      cases member with
      | head =>
          intro untainted
          exact tainted_of_not_within sound active beyond (untainted_take_of_takeAll untainted)
      | tail _ member => exact ih (sound.take first) still member

theorem answer_close_withLimit (session : Session) (limit : Nat) (metadata : Metadata) :
    ((session.withLimit limit).close metadata).1 = (session.close metadata).1 := by
  have state : (session.withLimit limit).state = session.state := rfl
  have taint : (session.withLimit limit).taint = session.taint := rfl
  have steps : (session.withLimit limit).steps = session.steps := rfl
  unfold close
  simp only [state, taint, steps, tree_withLimit, CallTree.finish_withLimit]
  split
  · rfl
  · split
    · rfl
    · split <;> rfl

/-- A looser limit makes no difference to a transaction whose calls lie within the limit. -/
theorem closing_of_within {transaction : Transaction} (looser : config.maxDepth ≤ limit)
    (within : ∀ event ∈ transaction.events, event.Within config.maxDepth) :
    closing { config with maxDepth := limit } transaction = closing config transaction := by
  have sound : Sound config (started config) := (sound_new config).clear.withState .active
  have begun : started { config with maxDepth := limit } = (started config).withLimit limit := rfl
  rw [closing, begun, takeAll_withLimit sound looser within, answer_close_withLimit, closing]

/-- A transaction with a call beyond the limit is discarded. -/
theorem discarded_of_not_within {World : Type} {transaction : Transaction} {event : Event}
    (member : event ∈ transaction.events) (beyond : ¬event.Within config.maxDepth)
    (sink : Sink (StateM World)) (world : World) :
    (ending config transaction sink world).answer = .ok (.discarded Outcome.discardReason) := by
  have sound : Sound config (started config) := (sound_new config).clear.withState .active
  rw [answer_ending_eq_discarded_iff, Option.isSome_iff_ne_none]
  exact tainted_of_mem sound rfl member beyond

/--
A tighter limit of the depth of calls can only discard a transaction. If it does not, the
transaction comes to the same end as under the looser limit: the answer is the same, the sink is
called with the same trace and leaves the same world. So a transaction that is discarded under the
looser limit is discarded under the tighter one, and one that is discarded under the tighter limit
only enters a call that lies beyond it.
-/
theorem tighter_limit_only_discards {World : Type} (config : Config) {tight loose : Nat}
    (tighter : tight ≤ loose) (transaction : Transaction) (sink : Sink (StateM World))
    (world : World) :
    let under := fun limit => ending { config with maxDepth := limit } transaction sink world
    let discarded := fun limit => (under limit).answer = .ok (.discarded Outcome.discardReason)
    (discarded tight ∨ under tight = under loose) ∧
      (discarded loose → discarded tight) ∧
      (discarded tight → ¬discarded loose →
        ∃ call, .enter call ∈ transaction.events ∧ tight < call.depth) := by
  intro under discarded
  have same : (∀ event ∈ transaction.events, event.Within tight) → under tight = under loose := by
    intro within
    have looser : ({ config with maxDepth := tight } : Config).maxDepth ≤ loose := tighter
    have closed : closing { config with maxDepth := loose } transaction =
        closing { config with maxDepth := tight } transaction :=
      closing_of_within looser within
    simp only [under, ending_eq, closed]
  have either : discarded tight ∨ under tight = under loose := by
    by_cases within : ∀ event ∈ transaction.events, event.Within tight
    · exact .inr (same within)
    · simp only [not_forall] at within
      obtain ⟨event, member, beyond⟩ := within
      exact .inl (discarded_of_not_within member beyond sink world)
  refine ⟨either, ?_, ?_⟩
  · intro lost
    rcases either with lost' | equal
    · exact lost'
    · exact (congrArg Ending.answer equal).trans lost
  · intro lost kept
    by_contra none_beyond
    apply kept
    refine (congrArg Ending.answer (same ?_)).symm.trans lost
    intro event member call enters
    apply Nat.le_of_not_lt
    intro deep
    exact none_beyond ⟨call, enters ▸ member, deep⟩

/-- Three calls, one inside the other: the innermost one lies beyond the tighter limit. -/
theorem tighter_limit_discards_third_call :
    let called := fun depth => Call.plain .call depth (.zero 20) (.zero 20)
    let step : Step := { pc := 0, depth := 1, opcode := "CALL", gas := 9, cost := 1, output := "" }
    let transaction : Transaction :=
      { metadata :=
          { block := 0, hash := .zero 32, sender := .zero 20, recipient := none, value := 0
            gasPrice := 0, gasUsed := 0 }
        events := [.step step, .enter (called 0), .enter (called 1), .enter (called 2)] }
    let under := fun limit => ending { maxDepth := limit } transaction Sink.memory []
    let discarded := fun limit => (under limit).answer = .ok (.discarded Outcome.discardReason)
    1 ≤ 2 ∧ discarded 1 ∧ ¬discarded 2 ∧
      (under 2).world.map (fun trace => trace.calls.length) = [3] ∧
      ∃ call, .enter call ∈ transaction.events ∧ 1 < call.depth := by
  intro called step transaction under discarded
  have lost : (under 1).answer = .ok (.discarded Outcome.discardReason) := by decide +kernel
  have kept : (under 2).answer ≠ .ok (.discarded Outcome.discardReason) := by decide +kernel
  obtain ⟨_, _, beyond⟩ :=
    tighter_limit_only_discards {} (Nat.le_succ 1) transaction Sink.memory []
  exact ⟨Nat.le_succ 1, lost, kept, by decide +kernel, beyond lost kept⟩

end Session

end EvmTrace

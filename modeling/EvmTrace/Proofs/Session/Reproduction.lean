import EvmTrace.Proofs.CallTree.Growth
import EvmTrace.Proofs.Session.Execution
import EvmTrace.Proofs.Session.History

/-!
A session reproduces the execution that is reported to it. The induction is on what happens inside a
call: from any open branch on, the items are taken without an error, the streams grow by what a walk
over the items records, and the branch is left as open as it was.
-/

set_option autoImplicit false

namespace EvmTrace

namespace Session

variable {config : Config}

/-- The session takes every one of the events and becomes another one with them. -/
def Takes (before : Session) : List Event → Session → Prop
  | [], after => before = after
  | event :: rest, after =>
    ∃ between, before.take event = (.ok (), between) ∧ between.Takes rest after

theorem Takes.append {before between after : Session} {first rest : List Event}
    (front : before.Takes first between) (back : between.Takes rest after) :
    before.Takes (first ++ rest) after := by
  induction first generalizing before with
  | nil =>
      cases front
      exact back
  | cons event first ih =>
      obtain ⟨next, taken, front⟩ := front
      exact ⟨next, taken, ih front⟩

/-- A session records a transaction. -/
structure Open (config : Config) (session : Session) : Prop where
  sound : Sound config session
  active : session.state = .active
  untainted : session.taint = none
  consistent : session.tree.branch.Consistent

def indexed (session : Session) (call : Call) : Call :=
  { call with index := session.nextIndex }

def entered (session : Session) (call : Call) : Session :=
  { session with
    tree := session.tree.place (session.indexed call)
    nextIndex := session.nextIndex + 1
    transfers :=
      if pays session.config call then
        payment (session.indexed call) (session.tree.branch.nextPath call.depth) ::
          session.transfers
      else session.transfers }

def logged (session : Session) (emitted : Log) : Session :=
  let event := TokenEvent.classify emitted.topics emitted.data emitted.address
  { session with
    transfers := match event.movement with
      | none => session.transfers
      | some movement => tokenTransfer movement session.tree.current :: session.transfers
    logs := tag emitted event :: session.logs }

theorem transfers_logged_of_none {session : Session} {emitted : Log}
    (still : (TokenEvent.classify emitted.topics emitted.data emitted.address).movement = none) :
    (session.logged emitted).transfers = session.transfers := by
  simp only [logged, still]

theorem transfers_logged_of_some {session : Session} {emitted : Log} {movement : TokenMovement}
    (moves : (TokenEvent.classify emitted.topics emitted.data emitted.address).movement =
      some movement) :
    (session.logged emitted).transfers =
      tokenTransfer movement session.tree.current :: session.transfers := by
  simp only [logged, moves]

/-- A session has recorded visits and has kept the branch above a depth. -/
structure Grew (config : Config) (before after : Session) (depth : Nat) (visits : List Visit) :
    Prop where
  opened : Open config after
  branch : before.tree.branch.Grown after.tree.branch depth (visits.filterMap Visit.call?)
  steps : after.steps.reverse = before.steps.reverse ++ visits.filterMap Visit.step?
  logs : after.logs.reverse = before.logs.reverse ++ visits.filterMap Visit.log?
  transfers : after.transfers.reverse =
    before.transfers.reverse ++ visits.filterMap (Visit.transfer? config)
  nextIndex : after.nextIndex = before.nextIndex + (visits.filterMap Visit.call?).length

/-- A session stands inside a call that has had a number of calls inside it. -/
structure Inside (session : Session) (emitter : PlacedCall) (siblings : Nat) : Prop where
  current : ∃ slot, session.tree.current =
    some { index := emitter.call.index, depth := emitter.call.depth, path := emitter.path, slot }
  outer : ∀ call ∈ session.tree.openCalls, call.depth < emitter.call.depth + 1
  reached : emitter.call.depth < session.tree.branch.levels.length
  path : ((session.tree.branch.levels.take (emitter.call.depth + 1)).map Level.ordinal).tail =
    emitter.path
  siblings : session.tree.branch.nextOrdinal (emitter.call.depth + 1) = siblings + 1

namespace Open

variable {session : Session}

theorem obstacle_eq_none (opened : Open config session) (operation : Operation) :
    session.obstacle operation = none :=
  (obstacle_eq_none_iff session operation).mpr ⟨opened.active, opened.untainted⟩

theorem le_deepest (opened : Open config session) {depth : Nat}
    (reached : depth ≤ session.tree.branch.levels.length) : depth ≤ session.tree.deepest :=
  CallTree.length_levels opened.sound.wellFormed ▸ reached

theorem withStreams (opened : Open config session) (steps : List Step) (logs : List TaggedLog)
    (transfers : List Transfer) : Open config { session with steps, logs, transfers } :=
  ⟨⟨opened.sound.configured, opened.sound.wellFormed, opened.sound.bound⟩, opened.active,
    opened.untainted, opened.consistent⟩

theorem take_step (opened : Open config session) (executed : Step) :
    session.take (.step executed) =
      (.ok (), { session with steps := executed :: session.steps }) := by
  unfold take Session.step
  rw [opened.obstacle_eq_none .step]

theorem take_log (opened : Open config session) (emitted : Log) :
    session.take (.log emitted) = (.ok (), logged session emitted) := by
  unfold take log
  rw [opened.obstacle_eq_none .log]
  rfl

theorem take_exit (opened : Open config session) (depth : Nat) (output : Bytes) :
    session.take (.exit depth output) =
      (.ok (), { session with tree := (session.tree.exit depth output).2 }) := by
  unfold take exit
  rw [opened.obstacle_eq_none .exit]

theorem take_enter (opened : Open config session) (call : Call)
    (fits : call.depth ≤ config.maxDepth)
    (reached : call.depth ≤ session.tree.branch.levels.length) :
    session.take (.enter call) = (.ok (), entered session call) := by
  have inside := opened.le_deepest reached
  have accepted : session.tree.enter { call with index := session.nextIndex } =
      .ok (session.tree.place (session.indexed call)) :=
    (CallTree.enter_eq_ok_iff _ _ _).mpr ⟨opened.sound.bound ▸ fits, inside, rfl⟩
  have current := CallTree.current_place session.tree (session.indexed call)
    opened.sound.wellFormed inside
  unfold take enter
  rw [opened.obstacle_eq_none .enter]
  simp only [accepted, currentPath, current]
  rfl

theorem branch_entered (opened : Open config session) (call : Call)
    (reached : call.depth ≤ session.tree.branch.levels.length) :
    (entered session call).tree.branch =
      session.tree.branch.place (session.indexed call) :=
  CallTree.branch_place session.tree _ opened.sound.wellFormed (opened.le_deepest reached)

theorem entered_open (opened : Open config session) (call : Call)
    (reached : call.depth ≤ session.tree.branch.levels.length) :
    Open config (entered session call) := by
  have branch := opened.branch_entered call reached
  have wellFormed := opened.sound.wellFormed.place (session.indexed call)
    (opened.le_deepest reached)
  refine ⟨⟨opened.sound.configured, wellFormed, ?_⟩, opened.active, opened.untainted, ?_⟩
  · rw [← CallTree.branch_maxDepth, branch]
    exact opened.sound.bound
  · rw [branch]
    exact opened.consistent.place _ reached

end Open

namespace Grew

variable {before between after : Session} {depth : Nat}

theorem refl (opened : Open config before) (depth : Nat) : Grew config before before depth [] :=
  ⟨opened, .refl opened.consistent depth, (List.append_nil _).symm, (List.append_nil _).symm,
    (List.append_nil _).symm, rfl⟩

theorem trans {visits more : List Visit} (first : Grew config before between depth visits)
    (rest : Grew config between after depth more) :
    Grew config before after depth (visits ++ more) := by
  refine ⟨rest.opened, ?_, ?_, ?_, ?_, ?_⟩
  · rw [List.filterMap_append]
    exact first.branch.trans rest.branch
  · rw [rest.steps, first.steps, List.filterMap_append, List.append_assoc]
  · rw [rest.logs, first.logs, List.filterMap_append, List.append_assoc]
  · rw [rest.transfers, first.transfers, List.filterMap_append, List.append_assoc]
  · rw [rest.nextIndex, first.nextIndex, List.filterMap_append, List.length_append, Nat.add_assoc]

end Grew

/-- A session that only differs in its streams stands where the other one stands. -/
theorem Inside.congr {before after : Session} {emitter : PlacedCall} {siblings : Nat}
    (inside : before.Inside emitter siblings) (same : after.tree = before.tree) :
    after.Inside emitter siblings := by
  obtain ⟨current, outer, reached, path, counted⟩ := inside
  exact ⟨same ▸ current, same ▸ outer, same ▸ reached, same ▸ path, same ▸ counted⟩

theorem grew_step {session : Session} (opened : Open config session) (executed : Step)
    (depth : Nat) :
    Grew config session { session with steps := executed :: session.steps } depth
      [.step executed] := by
  refine ⟨opened.withStreams _ _ _, .refl opened.consistent depth, ?_, ?_, ?_, rfl⟩
  · simp [Visit.step?]
  · simp [Visit.log?]
  · simp [Visit.transfer?]

theorem grew_log {session : Session} (opened : Open config session) (emitted : Log)
    {emitter : PlacedCall} {siblings : Nat} (inside : session.Inside emitter siblings)
    (depth : Nat) :
    ∃ after, session.take (.log emitted) = (.ok (), after) ∧ after.tree = session.tree ∧
      Grew config session after depth [.log emitted emitter] := by
  obtain ⟨slot, current⟩ := inside.current
  refine ⟨_, opened.take_log emitted, rfl, opened.withStreams _ _ _,
    .refl opened.consistent depth, ?_, ?_, ?_, rfl⟩
  · simp [logged, Visit.step?]
  · simp [logged, Visit.log?, tag, Log.tagged]
  · cases moves : (TokenEvent.classify emitted.topics emitted.data emitted.address).movement with
    | none => simp [Visit.transfer?, transfers_logged_of_none moves, moves]
    | some movement =>
        simp [Visit.transfer?, transfers_logged_of_some moves, moves, tokenTransfer, current]

/-- The transfers grow by the payment of a call, if it pays. -/
theorem Open.transfers_entered {session : Session} (opened : Open config session) (call : Call)
    (output : Bytes) :
    (entered session call).transfers.reverse =
      session.transfers.reverse ++
        (Visit.transfer? config (.call (call.recorded session.nextIndex call.depth output
          (session.tree.branch.nextPath call.depth)))).toList := by
  obtain ⟨rfl, _, _⟩ := opened.sound
  simp only [entered, Visit.transfer?, Call.recorded, ← pays_iff]
  by_cases paying : pays session.config call = true
  · rw [if_pos paying, if_pos paying, List.reverse_cons]
    rfl
  · rw [if_neg paying, if_neg paying, Option.toList_none, List.append_nil]

/-- A call that has just been entered has had no calls inside it. -/
theorem Open.inside_entered {session : Session} (opened : Open config session) (call : Call)
    (outer : ∀ other ∈ session.tree.openCalls, other.depth < call.depth)
    (reached : call.depth ≤ session.tree.branch.levels.length) (output : Bytes) :
    (entered session call).Inside
      (call.recorded session.nextIndex call.depth output
        (session.tree.branch.nextPath call.depth)) 0 := by
  have branch := opened.branch_entered call reached
  have current := CallTree.current_place session.tree (session.indexed call)
    opened.sound.wellFormed (opened.le_deepest reached)
  have length := Branch.length_levels_place session.tree.branch (session.indexed call) reached
  refine ⟨⟨_, current⟩, ?_, ?_, ?_, ?_⟩
  · intro other member
    rw [← CallTree.branch_openCalls, branch,
      Branch.openCalls_place _ _ opened.consistent] at member
    rcases List.mem_cons.mp member with rfl | member
    · exact Nat.lt_succ_self _
    · exact Nat.lt_succ_of_lt (outer other (List.mem_filter.mp member).1)
  · rw [branch, length]
    exact Nat.lt_succ_self _
  · rw [branch]
    change (((session.tree.branch.place _).levels.take ((session.indexed call).depth + 1)).map
      Level.ordinal).tail = session.tree.branch.nextPath (session.indexed call).depth
    rw [List.take_of_length_le (Nat.le_of_eq length), Branch.path_place]
  · have below := Branch.nextOrdinal_place session.tree.branch (session.indexed call)
      (call.depth + 1) reached
    have deeper : ¬call.depth + 1 < (session.indexed call).depth := Nat.not_lt.mpr (Nat.le_succ _)
    have other : call.depth + 1 ≠ (session.indexed call).depth := Nat.succ_ne_self _
    rw [if_neg deeper, if_neg other] at below
    rw [branch]
    exact below

/-- Items are taken and recorded inside any call. -/
def Taken (config : Config) (items : Items) : Prop :=
  ∀ (session : Session) (emitter : PlacedCall) (siblings : Nat), Open config session →
    session.Inside emitter siblings →
    (∀ call, .enter call ∈ items.events (emitter.call.depth + 1) →
      call.depth ≤ config.maxDepth) →
    ∃ after, session.Takes (items.events (emitter.call.depth + 1)) after ∧
      Grew config session after (emitter.call.depth + 1)
        (items.visits emitter session.nextIndex siblings)

/-- The exit of a call finds the call open again once everything inside it has been taken. -/
theorem Grew.branch_exited {session inner : Session} {call : Call} {visits : List Visit}
    (grew : Grew config (entered session call) inner (call.depth + 1) visits)
    (opened : Open config session) (reached : call.depth ≤ session.tree.branch.levels.length)
    (output : Bytes) :
    (inner.tree.exit call.depth output).2.branch =
      inner.tree.branch.exited (session.tree.branch.opened (session.indexed call)) output := by
  have member : session.tree.branch.opened (session.indexed call) ∈
      inner.tree.branch.openCalls := by
    rw [grew.branch.openCalls, opened.branch_entered call reached,
      Branch.openCalls_place _ _ opened.consistent]
    exact List.mem_cons_self
  rw [(CallTree.branch_exit grew.opened.sound.wellFormed call.depth output).2]
  exact congrArg Prod.snd (Branch.exit_of_mem grew.opened.consistent member output)

/-- A call that exits is recorded in front of what has been recorded inside it. -/
theorem Grew.exited {session inner : Session} {call : Call} {visits : List Visit}
    (grew : Grew config (entered session call) inner (call.depth + 1) visits)
    (opened : Open config session) (reached : call.depth ≤ session.tree.branch.levels.length)
    (outer : ∀ other ∈ session.tree.openCalls, other.depth < call.depth) (output : Bytes) :
    Grew config session { inner with tree := (inner.tree.exit call.depth output).2 } call.depth
      (.call (call.recorded session.nextIndex call.depth output
        (session.tree.branch.nextPath call.depth)) :: visits) := by
  have branch := grew.branch_exited opened reached output
  have grown := grew.branch
  rw [opened.branch_entered call reached] at grown
  change (session.tree.branch.place (session.indexed call)).Grown inner.tree.branch
    ((session.indexed call).depth + 1) _ at grown
  have closed := grown.exited opened.consistent outer reached output
  rw [← branch] at closed
  refine ⟨⟨grew.opened.sound.exited call.depth output, grew.opened.active,
    grew.opened.untainted, closed.consistent⟩, closed, grew.steps, grew.logs, ?_, ?_⟩
  · have transfers := grew.transfers
    rw [opened.transfers_entered call output, List.append_assoc] at transfers
    refine transfers.trans (congrArg (session.transfers.reverse ++ ·) ?_)
    generalize call.recorded session.nextIndex call.depth output _ = placed
    cases paid : Visit.transfer? config (.call placed) with
    | none => rw [List.filterMap_cons_none paid, Option.toList_none, List.nil_append]
    | some payment =>
        rw [List.filterMap_cons_some paid, Option.toList_some, List.singleton_append]
  · have entered : (entered session call).nextIndex = session.nextIndex + 1 := rfl
    change inner.nextIndex = _
    simp only [grew.nextIndex, entered, List.filterMap_cons, Visit.call?, List.length_cons]
    omega

/-- A call is taken, from its entry to its exit, if what happens inside it is. -/
theorem Taken.call {items : Items} (taken : Taken config items) {session : Session}
    (opened : Open config session) (call : Call) (output : Bytes)
    (outer : ∀ other ∈ session.tree.openCalls, other.depth < call.depth)
    (reached : call.depth ≤ session.tree.branch.levels.length)
    (fits : call.depth ≤ config.maxDepth)
    (within : ∀ inner, .enter inner ∈ items.events (call.depth + 1) →
      inner.depth ≤ config.maxDepth) :
    let placed := call.recorded session.nextIndex call.depth output
      (session.tree.branch.nextPath call.depth)
    ∃ after, session.Takes
        (.enter call :: items.events (call.depth + 1) ++ [.exit call.depth output]) after ∧
      Grew config session after call.depth
        (.call placed :: items.visits placed (session.nextIndex + 1) 0) ∧
      call.depth < after.tree.branch.levels.length ∧
      after.tree.branch.nextOrdinal call.depth =
        session.tree.branch.nextOrdinal call.depth + 1 := by
  intro placed
  obtain ⟨inner, takes, grew⟩ := taken (entered session call) placed 0
    (opened.entered_open call reached) (opened.inside_entered call outer reached output) within
  have branch := grew.branch_exited opened reached output
  have grown := grew.branch
  rw [opened.branch_entered call reached] at grown
  refine ⟨{ inner with tree := (inner.tree.exit call.depth output).2 }, ?_,
    grew.exited opened reached outer output, ?_, ?_⟩
  · exact ⟨_, opened.take_enter call fits reached,
      takes.append ⟨_, grew.opened.take_exit call.depth output, rfl⟩⟩
  · change call.depth < (inner.tree.exit call.depth output).2.branch.levels.length
    rw [branch]
    exact Branch.Grown.reached_exited grown reached output
  · change (inner.tree.exit call.depth output).2.branch.nextOrdinal call.depth = _
    rw [branch]
    exact Branch.Grown.nextOrdinal_exited grown reached output

theorem Inside.nextPath {session : Session} {emitter : PlacedCall} {siblings : Nat}
    (inside : session.Inside emitter siblings) :
    session.tree.branch.nextPath (emitter.call.depth + 1) = emitter.path ++ [siblings + 1] := by
  rw [Branch.nextPath_succ _ _ inside.reached, inside.path, inside.siblings]

/-- Behind a call inside the emitter, a session stands inside the emitter again. -/
theorem Inside.grew {before after : Session} {emitter : PlacedCall} {siblings : Nat}
    {visits : List Visit} (inside : before.Inside emitter siblings)
    (grew : Grew config before after (emitter.call.depth + 1) visits)
    (reached : emitter.call.depth + 1 < after.tree.branch.levels.length)
    (counted : after.tree.branch.nextOrdinal (emitter.call.depth + 1) =
      before.tree.branch.nextOrdinal (emitter.call.depth + 1) + 1) :
    after.Inside emitter (siblings + 1) := by
  have openCalls : after.tree.openCalls = before.tree.openCalls := grew.branch.openCalls
  refine ⟨?_, ?_, Nat.lt_of_succ_lt reached, ?_, ?_⟩
  · rw [CallTree.current, openCalls]
    exact inside.current
  · rw [openCalls]
    exact inside.outer
  · rw [grew.branch.levels]
    exact inside.path
  · rw [counted, inside.siblings]

/-- Whatever happens inside a call is taken and recorded. -/
theorem taken (config : Config) (items : Items) : Taken config items := by
  induction items with
  | nil =>
      intro session emitter siblings opened inside within
      exact ⟨session, rfl, .refl opened _⟩
  | step executed rest ih =>
      intro session emitter siblings opened inside within
      obtain ⟨after, takes, grew⟩ := ih { session with steps := executed :: session.steps } emitter
        siblings (opened.withStreams _ _ _) (inside.congr rfl)
        fun call member => within call (List.mem_cons_of_mem _ member)
      exact ⟨after, ⟨_, opened.take_step executed, takes⟩,
        (grew_step opened executed _).trans grew⟩
  | log emitted rest ih =>
      intro session emitter siblings opened inside within
      obtain ⟨between, taken, same, grown⟩ :=
        grew_log opened emitted inside (emitter.call.depth + 1)
      obtain ⟨after, takes, grew⟩ := ih between emitter siblings grown.opened (inside.congr same)
        fun call member => within call (List.mem_cons_of_mem _ member)
      rw [grown.nextIndex] at grew
      exact ⟨after, ⟨_, taken, takes⟩, grown.trans grew⟩
  | call entered output items rest inner ih =>
      -- The call is taken around its own items; the rest then finds the emitter as it was, with
      -- one more call inside it.
      intro session emitter siblings opened inside within
      have fits := within _ List.mem_cons_self
      obtain ⟨between, takes, grew, reached, counted⟩ :=
        inner.call opened { entered with depth := emitter.call.depth + 1 } output inside.outer
          inside.reached fits fun call member => within call
            (List.mem_cons_of_mem _ (List.mem_append_left _ member))
      obtain ⟨after, takes', grew'⟩ := ih between emitter (siblings + 1) grew.opened
        (inside.grew grew reached counted) fun call member => within call
          (List.mem_cons_of_mem _ (List.mem_append_right _ (List.mem_cons_of_mem _ member)))
      have numbered : between.nextIndex = session.nextIndex + items.size + 1 := by
        simp only [grew.nextIndex, List.filterMap_cons, Visit.call?, List.length_cons,
          Items.length_calls_visits, Nat.add_assoc]
      have path := inside.nextPath
      refine ⟨after, ?_, ?_⟩
      · simpa [Items.events] using takes.append takes'
      · rw [numbered] at grew'
        have all := grew.trans grew'
        simp only [path] at all
        exact all

/-- Executions are taken one after the other, whatever has been recorded before them. -/
theorem taken_forest (config : Config) (forest : List Execution) :
    ∀ session : Session, Open config session → session.tree.openCalls = [] →
      (∀ call, .enter call ∈ Execution.events forest → call.depth ≤ config.maxDepth) →
      ∃ after, session.Takes (Execution.events forest) after ∧
        Grew config session after 0 (Execution.visits session.nextIndex forest) := by
  induction forest with
  | nil =>
      intro session opened alone within
      exact ⟨session, rfl, .refl opened 0⟩
  | cons root rest ih =>
      intro session opened alone within
      rw [Execution.events, List.flatMap_cons] at within
      have fits := within _ (List.mem_append_left _ List.mem_cons_self)
      obtain ⟨between, takes, grew, _⟩ :=
        (taken config root.items).call opened { root.call with depth := 0 } root.output
          (by simp [alone]) (Nat.zero_le _) fits fun call member => within call
            (List.mem_append_left _ (List.mem_cons_of_mem _ (List.mem_append_left _ member)))
      have closed : between.tree.openCalls = [] := (grew.branch.openCalls).trans alone
      obtain ⟨after, takes', grew'⟩ := ih between grew.opened closed fun call member =>
        within call (List.mem_append_right _ member)
      have numbered : between.nextIndex = session.nextIndex + root.items.size + 1 := by
        simp only [grew.nextIndex, List.filterMap_cons, Visit.call?, List.length_cons,
          Items.length_calls_visits, Nat.add_assoc]
      rw [numbered] at grew'
      refine ⟨after, ?_, grew.trans grew'⟩
      rw [Execution.events, List.flatMap_cons]
      exact takes.append takes'

theorem open_started {session : Session} (sound : Sound config session) :
    Open config { session.clear with state := .active } :=
  ⟨sound.clear.withState .active, rfl, rfl, by
    change session.tree.reset.branch.Consistent
    rw [CallTree.branch_reset]
    exact Branch.consistent_empty _⟩

/--
An execution that is reported to a session is what its trace holds. The session has any requests
behind it; every event is taken; the trace lists the steps and the logs in the order in which they
are reported, and the calls and transfers in the order of a walk over the execution, in which the
calls are numbered from zero on.
-/
theorem trace_reproduces_execution {World : Type} (config : Config) (world : World)
    (requests : List (Request World)) (forest : List Execution) (metadata : Metadata)
    (inactive : ((Host.new config world).run requests).session.state ≠ .active)
    (within : ∀ call, .enter call ∈ Execution.events forest → call.depth ≤ config.maxDepth)
    (stepped : ∃ step, .step step ∈ Execution.events forest) :
    let visits := Execution.visits 0 forest
    let calls := visits.filterMap Visit.call?
    ∃ started after, ((Host.new config world).run requests).session.start = (.ok (), started) ∧
      started.Takes (Execution.events forest) after ∧
      (after.close metadata).1 = .ok (some
        { metadata, calls
          steps := (Execution.events forest).filterMap Event.step?
          logs := (Execution.events forest).filterMap Event.log?
          transfers := visits.filterMap (Visit.transfer? config) }) ∧
      (calls.map fun placed => placed.call.index) = List.range calls.length := by
  intro visits calls
  have sound := (Host.Kept.run config world requests).sound
  generalize ((Host.new config world).run requests).session = session at inactive sound ⊢
  have opened := open_started sound
  obtain ⟨after, takes, grew⟩ := taken_forest config forest _ opened rfl within
  change Grew config _ after 0 visits at grew
  refine ⟨{ session.clear with state := .active }, after, ?_, takes, ?_, ?_⟩
  · rw [start, if_neg inactive]
  · have steps : after.steps.reverse = (Execution.events forest).filterMap Event.step? :=
      grew.steps.trans (Execution.steps_visits forest 0)
    have some_step : after.steps ≠ [] := by
      intro bare
      obtain ⟨step, member⟩ := stepped
      rw [bare, List.reverse_nil] at steps
      have found : step ∈ (Execution.events forest).filterMap Event.step? :=
        List.mem_filterMap.mpr ⟨.step step, member, rfl⟩
      rw [← steps] at found
      cases found
    have untainted : after.taint.isSome = false := by rw [grew.opened.untainted]; rfl
    rw [close_of_step grew.opened.active untainted some_step, draft, steps,
      (CallTree.branch_finish grew.opened.sound.wellFormed).1, grew.branch.calls]
    have logs : after.logs.reverse = (Execution.events forest).filterMap Event.log? :=
      grew.logs.trans (Execution.logs_visits forest 0)
    have transfers : after.transfers.reverse = visits.filterMap (Visit.transfer? config) :=
      grew.transfers
    rw [logs, transfers]
    rfl
  · rw [List.range_eq_range']
    exact Execution.index_visits forest 0

/-- A call inside a call, each with one step: the outer one has path `[]`, the inner one `[1]`. -/
theorem trace_reproduces_nested_call :
    let outer := Call.plain .call 0 (.zero 20) (.zero 20)
    let inner := Call.plain .staticCall 0 (.zero 20) (.zero 20)
    let step : Step :=
      { pc := 0, depth := 1, opcode := "STATICCALL", gas := 9, cost := 1, output := "" }
    let forest : List Execution :=
      [{ call := outer, output := [1]
         items := .step step (.call inner [2] (.step step .nil) .nil) }]
    let metadata : Metadata :=
      { block := 0, hash := .zero 32, sender := .zero 20, recipient := none, value := 0
        gasPrice := 0, gasUsed := 0 }
    let session := ((Host.new {} ()).run []).session
    session.state ≠ .active ∧
      (∀ call, .enter call ∈ Execution.events forest → call.depth ≤ ({} : Config).maxDepth) ∧
      (∃ step, .step step ∈ Execution.events forest) ∧
      ∃ started after, session.start = (.ok (), started) ∧
        started.Takes (Execution.events forest) after ∧
        (after.close metadata).1 = .ok (some
          { metadata, steps := [step, step], logs := [], transfers := []
            calls :=
              [outer.recorded 0 0 [1] [], inner.recorded 1 1 [2] [1]] }) := by
  intro outer inner step forest metadata session
  have inactive : session.state ≠ .active := State.noConfusion
  have within : ∀ call, .enter call ∈ Execution.events forest →
      call.depth ≤ ({} : Config).maxDepth := by
    intro call member
    simp only [forest, Execution.events, Items.events, List.flatMap_cons, List.flatMap_nil,
      List.mem_append, List.mem_cons, Event.enter.injEq, reduceCtorEq, List.not_mem_nil, or_false,
      false_or] at member
    rcases member with rfl | rfl <;> decide
  have stepped : ∃ step, .step step ∈ Execution.events forest := ⟨step, by
    simp [forest, Execution.events, Items.events]⟩
  obtain ⟨started, after, start, takes, closed, _⟩ :=
    trace_reproduces_execution {} () [] forest metadata inactive within stepped
  exact ⟨inactive, within, stepped, started, after, start, takes, closed⟩

end Session

end EvmTrace

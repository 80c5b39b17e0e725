import EvmTrace.Proofs.Session.Host

/-!
Executions as trees: calls with the steps, logs and calls that happen inside them. A tree is
reported by its events, a call around those of everything inside it, and is recorded as the visits
of a walk that gives each call its index and its path.
-/

set_option autoImplicit false

namespace EvmTrace

/-- What happens inside a call, in the order in which it happens. -/
inductive Items where
  | nil
  | step (executed : Step) (rest : Items)
  | log (emitted : Log) (rest : Items)
  /-- A call, what it returns and what happens inside it. -/
  | call (entered : Call) (output : Bytes) (items : Items) (rest : Items)

/-- The outermost call of an execution. -/
structure Execution where
  call : Call
  output : Bytes
  items : Items

/-- What is recorded of an execution. -/
inductive Visit where
  | step (executed : Step)
  | log (emitted : Log) (emitter : PlacedCall)
  | call (placed : PlacedCall)

def Call.recorded (call : Call) (index depth : Nat) (output : Bytes) (path : CallPath) :
    PlacedCall :=
  { call := { call with index, depth, output }, path }

namespace Items

def size : Items → Nat
  | nil => 0
  | step _ rest => rest.size
  | log _ rest => rest.size
  | call _ _ items rest => items.size + 1 + rest.size

/-- The events that report the items if the calls among them have a given depth. -/
def events (depth : Nat) : Items → List Event
  | nil => []
  | step executed rest => .step executed :: rest.events depth
  | log emitted rest => .log emitted :: rest.events depth
  | call entered output items rest =>
    .enter { entered with depth } :: items.events (depth + 1) ++
      .exit depth output :: rest.events depth

/--
What is recorded of the items inside a call, if a given number of calls has been entered before them
and a given number of them inside the same call.
-/
def visits (emitter : PlacedCall) (index siblings : Nat) : Items → List Visit
  | nil => []
  | step executed rest => .step executed :: rest.visits emitter index siblings
  | log emitted rest => .log emitted emitter :: rest.visits emitter index siblings
  | call entered output items rest =>
    let placed :=
      entered.recorded index (emitter.call.depth + 1) output (emitter.path ++ [siblings + 1])
    .call placed :: items.visits placed (index + 1) 0 ++
      rest.visits emitter (index + items.size + 1) (siblings + 1)

end Items

namespace Execution

def events (forest : List Execution) : List Event :=
  forest.flatMap fun root =>
    .enter { root.call with depth := 0 } :: root.items.events 1 ++ [.exit 0 root.output]

def placed (root : Execution) (index : Nat) : PlacedCall :=
  root.call.recorded index 0 root.output []

/-- What is recorded of executions, if a given number of calls has been entered before them. -/
def visits (index : Nat) : List Execution → List Visit
  | [] => []
  | root :: rest =>
    .call (root.placed index) :: root.items.visits (root.placed index) (index + 1) 0 ++
      visits (index + root.items.size + 1) rest

end Execution

namespace Event

def step? : Event → Option Step
  | step executed => some executed
  | _ => none

def log? : Event → Option TaggedLog
  | log emitted => some emitted.tagged
  | _ => none

end Event

namespace Visit

def step? : Visit → Option Step
  | step executed => some executed
  | _ => none

def call? : Visit → Option PlacedCall
  | call placed => some placed
  | _ => none

def log? : Visit → Option TaggedLog
  | log emitted _ => some emitted.tagged
  | _ => none

/--
The transfer that a visit is: a call that pays, if payments are recorded, or a log that is
recognised as the movement of a token, which belongs to the call that emits it.
-/
def transfer? (config : Config) : Visit → Option Transfer
  | step _ => none
  | log emitted emitter =>
    (TokenEvent.classify emitted.topics emitted.data emitted.address).movement.map fun movement =>
      { sender := movement.sender, recipient := movement.recipient, token := some movement.token
        value := movement.value, depth := emitter.call.depth, callIndex := emitter.call.index
        path := emitter.path, kind := movement.kind }
  | call placed =>
    if config.nativeTransfers ∧ placed.call.value ≠ 0 ∧ placed.call.kind.movesValue then
      some
        { sender := placed.call.sender, recipient := placed.call.recipient, token := none
          value := placed.call.value, depth := placed.call.depth
          callIndex := placed.call.index, path := placed.path, kind := .native }
    else none

end Visit

namespace Items

theorem length_calls_visits (items : Items) (emitter : PlacedCall) (index siblings : Nat) :
    ((items.visits emitter index siblings).filterMap Visit.call?).length = items.size := by
  induction items generalizing emitter index siblings with
  | nil => rfl
  | step executed rest ih => exact ih emitter index siblings
  | log emitted rest ih => exact ih emitter index siblings
  | call entered output items rest inner ih =>
      simp only [visits, List.cons_append, List.filterMap_cons, Visit.call?,
        List.filterMap_append, List.length_cons, List.length_append, inner, ih, size]
      omega

/-- Steps are recorded in the order in which they are reported. -/
theorem steps_visits (items : Items) (emitter : PlacedCall) (index siblings depth : Nat) :
    (items.visits emitter index siblings).filterMap Visit.step? =
      (items.events depth).filterMap Event.step? := by
  induction items generalizing emitter index siblings depth with
  | nil => rfl
  | step executed rest ih => exact congrArg (executed :: ·) (ih emitter index siblings depth)
  | log emitted rest ih => exact ih emitter index siblings depth
  | call entered output items rest inner ih =>
      simp only [visits, events, List.cons_append, List.filterMap_cons, Visit.step?, Event.step?,
        List.filterMap_append, inner _ _ _ (depth + 1), ih _ _ _ depth]

/-- Logs are recorded in the order in which they are reported. -/
theorem logs_visits (items : Items) (emitter : PlacedCall) (index siblings depth : Nat) :
    (items.visits emitter index siblings).filterMap Visit.log? =
      (items.events depth).filterMap Event.log? := by
  induction items generalizing emitter index siblings depth with
  | nil => rfl
  | step executed rest ih => exact ih emitter index siblings depth
  | log emitted rest ih => exact congrArg (emitted.tagged :: ·) (ih emitter index siblings depth)
  | call entered output items rest inner ih =>
      simp only [visits, events, List.cons_append, List.filterMap_cons, Visit.log?, Event.log?,
        List.filterMap_append, inner _ _ _ (depth + 1), ih _ _ _ depth]

theorem range'_call (index inner rest : Nat) :
    index :: (List.range' (index + 1) inner ++ List.range' (index + inner + 1) rest) =
      List.range' index (inner + rest + 1) := by
  rw [List.range'_succ, ← List.range'_append_1, Nat.add_right_comm]

/-- Calls are numbered in the order of their entry. -/
theorem index_visits (items : Items) (emitter : PlacedCall) (index siblings : Nat) :
    ((items.visits emitter index siblings).filterMap Visit.call?).map (fun placed =>
      placed.call.index) = List.range' index items.size := by
  induction items generalizing emitter index siblings with
  | nil => rfl
  | step executed rest ih => exact ih emitter index siblings
  | log emitted rest ih => exact ih emitter index siblings
  | call entered output items rest inner ih =>
      simp only [visits, List.cons_append, List.filterMap_cons, Visit.call?,
        List.filterMap_append, List.map_cons, List.map_append, inner, ih, size]
      rw [Nat.add_right_comm items.size]
      exact range'_call index items.size rest.size

end Items

namespace Execution

theorem steps_visits (forest : List Execution) (index : Nat) :
    (visits index forest).filterMap Visit.step? = (events forest).filterMap Event.step? := by
  induction forest generalizing index with
  | nil => rfl
  | cons root rest ih =>
      simp only [visits, events, List.flatMap_cons, List.cons_append, List.filterMap_cons,
        Visit.step?, Event.step?, List.filterMap_append, Items.steps_visits _ _ _ _ 1, ih,
        List.filterMap_nil, List.append_nil]

theorem logs_visits (forest : List Execution) (index : Nat) :
    (visits index forest).filterMap Visit.log? = (events forest).filterMap Event.log? := by
  induction forest generalizing index with
  | nil => rfl
  | cons root rest ih =>
      simp only [visits, events, List.flatMap_cons, List.cons_append, List.filterMap_cons,
        Visit.log?, Event.log?, List.filterMap_append, Items.logs_visits _ _ _ _ 1, ih,
        List.filterMap_nil, List.append_nil]

theorem index_visits (forest : List Execution) (index : Nat) :
    ((visits index forest).filterMap Visit.call?).map (fun placed => placed.call.index) =
      List.range' index ((visits index forest).filterMap Visit.call?).length := by
  induction forest generalizing index with
  | nil => rfl
  | cons root rest ih =>
      simp only [visits, List.cons_append, List.filterMap_cons, Visit.call?,
        List.filterMap_append, List.map_cons, List.map_append, Items.index_visits, ih,
        List.length_cons, List.length_append, Items.length_calls_visits]
      exact Items.range'_call index _ _

end Execution

end EvmTrace
